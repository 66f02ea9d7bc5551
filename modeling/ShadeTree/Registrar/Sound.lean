import ShadeTree.Registrar.Turns

/-!
# What a call relies on

The engine checks the store and the keys in flight, awaits, and acts on what it checked.  `NoOverlap` is
the condition that what a call checked still holds when it acts.  Under it the order of a call at work is
where the call left it (`Sound.holding`), and a transaction that was broadcast and did not revert is on its
way to a call or recorded in the stored order (`Accounted`), unless the answer to the broadcast got lost or
the process stopped before it was recorded.
-/

namespace ShadeTree.Registrar

open Function (update)

variable {K T : Type}

/-- The order stands for a settlement: it is being paid, or was. -/
def Order.Stands (o : Order) : Prop := o.state ≠ none ∧ o.state ≠ some .failed

/-- The order was paid. -/
def Order.Paid (o : Order) : Prop :=
  o.state = some .settled ∨ o.state = some .inserting ∨ o.state = some .inserted

/-- The order carries the hash of a transaction that it is in, or has had. -/
def Order.Records (o : Order) (h : ℕ) : Kind → Prop
  | .settle => o.settleTx = some h ∧ o.Stands
  | .insert => o.insertTx = some h ∧ (o.state = some .inserting ∨ o.state = some .inserted)

namespace System

/-- The store holds the object `r`, with `P`. -/
def Has (s : System K T) (r : Ref K) (P : Order → Prop) : Prop :=
  s.orders r.1 = some r.2 ∧ ∃ o, s.heap r = some o ∧ P o

/-- Nothing is paid: the object is new or failed, and so is a stored one. -/
def Unpaid (s : System K T) (r : Ref K) : Prop :=
  (∃ o, s.heap r = some o ∧ (o.state = some .failed ∨ (o.state = none ∧ o.settleTx = none))) ∧
    ∀ o, s.stored r.1 = some o → o.state = some .failed

/-- Where the order of a call at work is. -/
def Holding (s : System K T) : Pc K → Prop
  | .locking r .settle => s.Unpaid r
  | .simulating r .settle => s.Unpaid r
  | .sending r .settle => s.Unpaid r
  | .sent r .settle _ => s.Unpaid r
  | .waiting r j h => s.Has r fun o => o.pending = some (j, h)
  | .throwing r .settle _ => s.Unpaid r ∨ s.Has r fun o => o.state = some .settling ∧ o.settleTx.isSome
  | .probing r _ => s.Has r fun o => o.state = some .settled
  | .locking r .insert => s.Has r fun o => o.state = some .settled
  | .simulating r .insert => s.Has r fun o => o.state = some .settled
  | .sending r .insert => s.Has r fun o => o.state = some .settled
  | .sent r .insert _ => s.Has r fun o => o.state = some .settled
  | .rooting r => s.Has r fun o => o.state = some .inserted
  | .throwing r .insert _ => s.Has r Order.Paid
  | _ => True

/-- Every transaction that stands is on its way to a call, or in the stored order. -/
def Accounted (s : System K T) (j : Kind) : Prop :=
  ∀ k h, s.chain.Standing j k h →
    (∃ t task r, s.call t = some ⟨task, .sent r j h⟩ ∧ r.1 = k) ∨ ∃ o, s.stored k = some o ∧ o.Records h j

/-- What a call checked before it awaited still holds when it acts on it. -/
def NoOverlap (s : System K T) : Label K T → Prop
  | .acted _ r new _ _ =>
    r.1 ∉ s.inflight ∧ (∀ o, s.stored r.1 = some o → o.state = some .failed) ∧
      (new = false → s.orders r.1 = some r.2)
  | .resumed _ _ r => r.1 ∉ s.inflight ∧ s.orders r.1 = some r.2
  | .reconciled _ r j h => r.1 ∉ s.inflight ∧ s.Has r fun o => o.pending = some (j, h)
  | _ => True

/-- No broadcast of the kind `j` is lost: its answer arrives, and at a restart it is in the file. -/
def Recorded (j : Kind) (s : System K T) : Label K T → Prop
  | .lost _ i => i ≠ j
  | .restarted _ => ∀ k h, s.chain.Standing j k h → ∃ o, s.file k = some o ∧ o.Records h j
  | _ => True

end System

/-- The order object of a call. -/
def Pc.ref : Pc K → Option (Ref K)
  | .reconciling r _ _ => some r
  | .reconciled r => some r
  | .checking _ _ _ => none
  | .locking r _ => some r
  | .simulating r _ => some r
  | .sending r _ => some r
  | .sent r _ _ => some r
  | .waiting r _ _ => some r
  | .probing r _ => some r
  | .rooting r => some r
  | .throwing r _ _ => some r
  | .closing r _ => some r
  | .looping => none

/-- What holds as long as calls do not overlap. -/
structure Sound (s : System K T) : Prop where
  kept : ∀ k n, s.orders k = some n → ∃ o, s.heap (k, n) = some o
  turns : Turns s
  holding : ∀ t c, s.call t = some c → s.Holding c.pc
  refs : ∀ t todo pc, s.call t = some ⟨.recover todo, pc⟩ →
    (∀ r ∈ todo, s.orders r.1 = some r.2) ∧ ∀ r, pc.ref = some r → s.orders r.1 = some r.2

/-! ### Orders of other authorizations -/

section Frame

variable {s s' : System K T} {r : Ref K} {k : K} {P Q : Order → Prop}

lemma System.Has.imp (h : s.Has r P) (hPQ : ∀ o, P o → Q o) : s.Has r Q :=
  ⟨h.1, h.2.imp fun _ ho => ⟨ho.1, hPQ _ ho.2⟩⟩

lemma System.Has.stored (h : s.Has r P) : ∃ o, s.stored r.1 = some o ∧ s.heap r = some o ∧ P o := by
  obtain ⟨hr, o, ho, hP⟩ := h
  exact ⟨o, (System.stored_of_orders hr).trans ho, ho, hP⟩

lemma System.SameAt.has (h : s.SameAt s' r.1) (hr : s.Has r P) : s'.Has r P := by
  obtain ⟨hr, o, ho, hP⟩ := hr
  exact ⟨h.1.trans hr, o, (h.2 r.2).trans ho, hP⟩

lemma System.SameAt.unpaid (h : s.SameAt s' r.1) (hr : s.Unpaid r) : s'.Unpaid r := by
  obtain ⟨⟨o, ho, hst⟩, hs⟩ := hr
  exact ⟨⟨o, (h.2 r.2).trans ho, hst⟩, fun o' ho' => hs o' (h.stored ▸ ho')⟩

lemma System.SameAt.holding (h : s.SameAt s' k) {pc : Pc K} (hk : pc.key = some k) (hh : s.Holding pc) :
    s'.Holding pc := by
  cases pc with
  | locking r j => obtain rfl := Option.some.inj hk; cases j; exacts [h.unpaid hh, h.has hh]
  | simulating r j => obtain rfl := Option.some.inj hk; cases j; exacts [h.unpaid hh, h.has hh]
  | sending r j => obtain rfl := Option.some.inj hk; cases j; exacts [h.unpaid hh, h.has hh]
  | sent r j _ => obtain rfl := Option.some.inj hk; cases j; exacts [h.unpaid hh, h.has hh]
  | waiting r j _ => obtain rfl := Option.some.inj hk; exact h.has hh
  | probing r _ => obtain rfl := Option.some.inj hk; exact h.has hh
  | rooting r => obtain rfl := Option.some.inj hk; exact h.has hh
  | throwing r j _ =>
    obtain rfl := Option.some.inj hk
    cases j
    · exact hh.imp h.unpaid h.has
    · exact h.has hh
  | closing r a => trivial
  | _ => cases hk

lemma System.holding_of_key_none {pc : Pc K} (hk : pc.key = none) : s.Holding pc := by
  cases pc <;> trivial

variable [DecidableEq T] {t : T} {c' : Option (Call K)}

/-- The calls after one of them went on and the orders of the others stayed. -/
lemma Sound.holding_step (hs : Sound s) (hcall : s'.call = update s.call t c')
    (hself : ∀ c, c' = some c → s'.Holding c.pc)
    (hsame : ∀ t' d k', t' ≠ t → s.call t' = some d → d.pc.key = some k' → s.SameAt s' k') :
    ∀ t' d, s'.call t' = some d → s'.Holding d.pc := by
  intro t' d hd
  rw [hcall] at hd
  by_cases ht : t' = t
  · rw [ht, Function.update_self] at hd
    exact hself d hd
  · rw [Function.update_of_ne ht] at hd
    cases hk : d.pc.key with
    | none => exact System.holding_of_key_none hk
    | some k' => exact (hsame t' d k' ht hd hk).holding hk (hs.holding t' d hd)

end Frame

/-! ### One suspension -/

section Suspension

variable {cfg : Config} {s : System K T} {t : T} {l : Label K T} {lock : Option T} {r : Ref K} {o o' : Order}

lemma Order.Paid.not_settling (h : o.Paid) : o.state ≠ some .settling := by
  intro hs
  rcases h with h | h | h <;> cases hs.symm.trans h

lemma Order.Paid.not_failed (h : o.Paid) : o.state ≠ some .failed := by
  intro hs
  rcases h with h | h | h <;> cases hs.symm.trans h

lemma Order.pending_settle {h : ℕ} :
    o.pending = some (.settle, h) ↔ o.state = some .settling ∧ o.settleTx = some h := by
  unfold Order.pending
  cases hst : o.state with
  | none => simp
  | some st => cases st <;> simp

lemma Order.pending_insert {h : ℕ} :
    o.pending = some (.insert, h) ↔ o.state = some .inserting ∧ o.insertTx = some h := by
  unfold Order.pending
  cases hst : o.state with
  | none => simp
  | some st => cases st <;> simp

lemma Order.resume_holding (hr : s.orders r.1 = some r.2) (ho : s.heap r = some o) :
    s.Holding (o.resume r) := by
  unfold Order.resume
  split_ifs with h
  · exact ⟨hr, o, ho, h⟩
  · trivial

lemma Order.entry_holding (hr : s.orders r.1 = some r.2) (ho : s.heap r = some o) :
    s.Holding (o.entry r) := by
  unfold Order.entry
  cases o.pending with
  | none => exact o.resume_holding hr ho
  | some jh => trivial

lemma Order.resume_ref {r' : Ref K} (h : (o.resume r).ref = some r') : r' = r := by
  unfold Order.resume at h
  split_ifs at h
  · exact (Option.some.inj h).symm
  · cases h

lemma Order.entry_ref {r' : Ref K} (h : (o.entry r).ref = some r') : r' = r := by
  unfold Order.entry at h
  cases hp : o.pending with
  | none =>
    rw [hp] at h
    exact o.resume_ref h
  | some jh =>
    rw [hp] at h
    exact (Option.some.inj h).symm

lemma Puts.task_eq {c c' : Call K} (hp : Puts s t r o c l c' o' lock) : c'.task = c.task := by
  cases hp <;> rfl

/-- A put comes from a call that reconciles, or from one at work on the order, which it may be done with. -/
lemma Puts.key {c c' : Call K} (hp : Puts s t r o c l c' o' lock) :
    (∃ j h, c.pc = .reconciling r j h ∧ l = .reconciled t r j h ∧ c'.pc = .reconciled r) ∨
      (c.pc.key = some r.1 ∧ ((∃ req rep, c.task = .post req rep) → c'.pc.key = some r.1)) := by
  have hdone : ∀ task : Task K, (∃ req rep, task = .post req rep) → (task.done r).key = some r.1 := by
    rintro _ ⟨req, rep, rfl⟩
    rfl
  cases hp with
  | reconciled _ => exact .inl ⟨_, _, rfl, rfl, rfl⟩
  | recorded => exact .inr ⟨rfl, fun _ => rfl⟩
  | @confirmed task j _ rc _ =>
    refine .inr ⟨rfl, ?_⟩
    cases j <;> cases rc
    · exact fun _ => rfl
    · exact fun _ => rfl
    · exact hdone task
    · exact fun _ => rfl
  | @rooted task => exact .inr ⟨rfl, hdone task⟩
  | caught => exact .inr ⟨rfl, fun _ => rfl⟩

lemma Puts.ref {c c' : Call K} (hp : Puts s t r o c l c' o' lock) :
    c.pc.ref = some r ∧ ∀ r', c'.pc.ref = some r' → r' = r := by
  have hdone : ∀ (task : Task K) (r' : Ref K), (task.done r).ref = some r' → r' = r := by
    intro task r' h
    cases task with
    | post req rep => exact (Option.some.inj h).symm
    | recover todo => cases h
  cases hp with
  | @confirmed task j _ rc _ =>
    refine ⟨rfl, fun r' h => ?_⟩
    cases j <;> cases rc
    · exact (Option.some.inj h).symm
    · exact (Option.some.inj h).symm
    · exact hdone task r' h
    · exact (Option.some.inj h).symm
  | @rooted task => exact ⟨rfl, hdone task⟩
  | _ => exact ⟨rfl, fun _ h => (Option.some.inj h).symm⟩

variable [DecidableEq K]

lemma Moves.of_post {req : Request K} {rep : Bool} {pc : Pc K} {c' : Call K}
    (hm : Moves cfg s t ⟨.post req rep, pc⟩ l c' lock) :
    ∃ pc', c' = ⟨.post req rep, pc'⟩ ∧ pc'.key = pc.key := by
  cases hm <;> exact ⟨_, rfl, rfl⟩

lemma Moves.of_recover {todo : List (Ref K)} {pc : Pc K} {c' : Call K}
    (hm : Moves cfg s t ⟨.recover todo, pc⟩ l c' lock) :
    ∃ todo' pc', c' = ⟨.recover todo', pc'⟩ ∧ (∀ r ∈ todo', r ∈ todo) ∧
      ∀ r, pc'.ref = some r → r ∈ todo ∨ pc.ref = some r := by
  cases hm with
  | next _ =>
    refine ⟨_, _, rfl, fun _ h => List.mem_cons_of_mem _ h, fun r' h => .inl ?_⟩
    rw [Order.entry_ref h]
    exact List.mem_cons_self
  | again _ =>
    refine ⟨_, _, rfl, fun _ h => h, fun r' h => .inr ?_⟩
    rw [Order.resume_ref h]
    rfl
  | receiptFails => exact ⟨_, _, rfl, fun _ h => h, fun _ h => (by cases h)⟩
  | caught => exact ⟨_, _, rfl, fun _ h => h, fun _ h => (by cases h)⟩
  | _ => exact ⟨_, _, rfl, fun _ h => h, fun _ h => .inr h⟩

lemma Moves.holding {c c' : Call K} (hm : Moves cfg s t c l c' lock) (hh : s.Holding c.pc)
    (hrefs : ∀ todo, c.task = .recover todo →
      (∀ r ∈ todo, s.orders r.1 = some r.2) ∧ ∀ r, c.pc.ref = some r → s.orders r.1 = some r.2) :
    s.Holding c'.pc := by
  cases hm with
  | receiptLate => trivial
  | receiptFails => trivial
  | next ho => exact Order.entry_holding ((hrefs _ rfl).1 _ List.mem_cons_self) ho
  | again ho => exact Order.resume_holding ((hrefs _ rfl).2 _ rfl) ho
  | readUsed => trivial
  | readActive => trivial
  | @acquire _ _ j => cases j <;> exact hh
  | @simulated _ _ j => cases j <;> exact hh
  | @refused _ _ j => cases j; exacts [.inl hh, hh.imp fun _ h => .inl h]
  | @staticFails _ _ j => cases j; exacts [.inl hh, hh.imp fun _ h => .inl h]
  | @sendFails _ _ j => cases j; exacts [.inl hh, hh.imp fun _ h => .inl h]
  | @lost _ _ j => cases j; exacts [.inl hh, hh.imp fun _ h => .inl h]
  | @waitFails _ _ j _ _ =>
    cases j
    · refine .inr (hh.imp fun o ho => ?_)
      obtain ⟨hst, htx⟩ := Order.pending_settle.mp ho
      exact ⟨hst, by rw [htx]; rfl⟩
    · exact hh.imp fun o ho => .inr (.inl (Order.pending_insert.mp ho).1)
  | readLimit _ => exact hh
  | absent => exact hh
  | probeFails => exact hh.imp fun _ h => .inl h
  | rootFails => exact hh.imp fun _ h => .inr (.inr h)
  | caught => trivial

/-- After a put the order is where the call left it. -/
lemma Puts.holding {c c' : Call K} {w : Bool} (hp : Puts s t r o c l c' o' lock) :
    (s.put r o' w).Holding c'.pc := by
  have hhas : ∀ P : Order → Prop, P o' → (s.put r o' w).Has r P :=
    fun P hP => ⟨System.orders_put, o', System.heap_put, hP⟩
  have hdone : ∀ task : Task K, (s.put r o' w).Holding (task.done r) := by
    intro task
    cases task <;> trivial
  cases hp with
  | reconciled _ => trivial
  | @recorded _ j h =>
    cases j
    · exact hhas _ (Order.pending_settle.mpr ⟨rfl, rfl⟩)
    · exact hhas _ (Order.pending_insert.mpr ⟨rfl, rfl⟩)
  | @confirmed task j _ rc _ =>
    cases j <;> cases rc
    · exact hhas _ rfl
    · refine .inl ⟨⟨_, System.heap_put, .inl rfl⟩, fun o'' ho'' => ?_⟩
      rw [System.stored_put] at ho''
      obtain rfl := Option.some.inj ho''
      rfl
    · exact hdone task
    · exact hhas _ (.inl rfl)
  | @rooted task => exact hdone task
  | caught => trivial

end Suspension

/-! ### The synchronous parts -/

section Synchronous

variable {cfg : Config} {s : System K T} {now : ℕ} {req : Request K} {r : Ref K} {o : Order}

lemma admission_cases (e : Option (Ref K)) :
    (∃ a, admission cfg s now req e = .answer a) ∨ admission cfg s now req e = .check e := by
  unfold admission
  split_ifs
  · exact .inl ⟨_, rfl⟩
  · cases verify cfg now req with
    | some a => exact .inl ⟨a, rfl⟩
    | none => exact .inr rfl

variable (cfg s now req r o) in
lemma proceed_cases :
    (∃ a, proceed cfg s now req r o = .answer a) ∨
      (o.state = some .settled ∧ proceed cfg s now req r o = .resume r) ∨
      (¬ o.Paid ∧ proceed cfg s now req r o = .check (some r)) := by
  unfold proceed
  cases hst : o.state with
  | none => exact (admission_cases _).imp_right fun h => .inr ⟨by simp [Order.Paid, hst], h⟩
  | some st =>
    cases st with
    | settling => exact .inl ⟨_, rfl⟩
    | inserting => exact .inl ⟨_, rfl⟩
    | inserted => exact .inl ⟨_, rfl⟩
    | settled => exact .inr (.inl ⟨rfl, rfl⟩)
    | failed => exact (admission_cases _).imp_right fun h => .inr ⟨by simp [Order.Paid, hst], h⟩

/-- The stored order that a call found, with the commitment and the tier of the request. -/
def Found (s : System K T) (req : Request K) (r : Ref K) (o : Order) : Prop :=
  r.1 = req.key ∧ s.orders r.1 = some r.2 ∧ s.heap r = some o ∧ o.commitment = req.commitment ∧
    o.limit = req.limit ∧ r.1 ∉ s.inflight

variable (cfg s now req) in
lemma begin_cases [DecidableEq K] :
    (∃ a, begin cfg s now req = .answer a) ∨
      (∃ r o, Found s req r o ∧
        ((∃ j h, o.pending = some (j, h) ∧ begin cfg s now req = .reconcile r j h) ∨
          (o.pending = none ∧ begin cfg s now req = proceed cfg s now req r o))) ∨
      (s.stored req.key = none ∧ isCommitment req.commitment ∧ (cfg.priceOf req.limit).isSome ∧
        begin cfg s now req = .check none) := by
  unfold begin
  by_cases h₁ : isCommitment req.commitment
  swap
  · exact .inl ⟨_, if_pos h₁⟩
  rw [if_neg (not_not.mpr h₁)]
  cases h₂ : cfg.priceOf req.limit with
  | none => exact .inl ⟨_, rfl⟩
  | some price =>
    simp only [Option.isNone_some, Bool.false_eq_true, if_false, Option.isSome_some]
    cases hn : s.orders req.key with
    | none =>
      have hs : s.stored req.key = none := by simp [System.stored, hn]
      exact (admission_cases none).imp_right fun h => .inr ⟨hs, h₁, trivial, h⟩
    | some n =>
      have hso : s.stored req.key = s.heap (req.key, n) := System.stored_of_orders (r := (req.key, n)) hn
      cases ho : s.stored req.key with
      | none => exact (admission_cases none).imp_right fun h => .inr ⟨rfl, h₁, trivial, h⟩
      | some o =>
        dsimp only
        by_cases h₃ : o.commitment = req.commitment ∧ o.limit = req.limit
        swap
        · exact .inl ⟨_, if_pos h₃⟩
        by_cases h₄ : req.key ∈ s.inflight
        · exact .inl ⟨_, by rw [if_neg (not_not.mpr h₃), if_pos h₄]⟩
        have hf : Found s req (req.key, n) o := ⟨rfl, hn, hso ▸ ho, h₃.1, h₃.2, h₄⟩
        rw [if_neg (not_not.mpr h₃), if_neg h₄]
        refine .inr (.inl ⟨_, o, hf, ?_⟩)
        cases hpd : o.pending with
        | none => exact .inr ⟨rfl, rfl⟩
        | some jh => exact .inl ⟨jh.1, jh.2, rfl, rfl⟩

lemma begin_resume [DecidableEq K] (h : begin cfg s now req = .resume r) :
    ∃ o, Found s req r o ∧ o.state = some .settled := by
  rcases begin_cases cfg s now req with
    ⟨a, ha⟩ | ⟨r', o, hf, ⟨j, hh, _, hb⟩ | ⟨_, hb⟩⟩ | ⟨_, _, _, hb⟩
  · cases ha.symm.trans h
  · cases hb.symm.trans h
  · rw [h] at hb
    rcases proceed_cases cfg s now req r' o with
      ⟨a, ha⟩ | ⟨hst, hp⟩ | ⟨_, hp⟩
    · cases hb.trans ha
    · cases hb.trans hp
      exact ⟨o, hf, hst⟩
    · cases hb.trans hp
  · cases hb.symm.trans h

end Synchronous

/-! ### The step -/

section Step

variable {cfg : Config} {s s' : System K T} {t : T} {l : Label K T}

lemma Sound.initial (c : Chain K) : Sound (System.initial c : System K T) where
  kept _ _ h := by cases h
  turns := by
    refine ⟨fun _ _ _ h => ?_, fun k => ?_, fun _ _ _ h => ?_⟩
    · cases h
    · simp [System.initial, busy]
    · cases h
  holding _ _ h := by cases h
  refs _ _ _ h := by cases h

lemma Sound.kept_put [DecidableEq K] (hs : Sound s) {r : Ref K} {o : Order} {w : Bool} {k : K} {n : ℕ}
    (hn : (s.put r o w).orders k = some n) : ∃ o₀, (s.put r o w).heap (k, n) = some o₀ := by
  by_cases hr : (k, n) = r
  · exact ⟨o, by rw [hr]; exact System.heap_put⟩
  · have hn' : s.orders k = some n := by
      by_cases hk : k = r.1
      · subst hk
        rw [System.orders_put] at hn
        exact absurd (by rw [← Option.some.inj hn]) hr
      · exact (System.sameAt_put (o := o) (w := w) hk).1 ▸ hn
    obtain ⟨o₀, ho₀⟩ := hs.kept k n hn'
    exact ⟨o₀, (Function.update_of_ne hr _ _).trans ho₀⟩

lemma Sound.kept_setOrder [DecidableEq K] (hs : Sound s) {r : Ref K} {o : Order} {k : K} {n : ℕ} (hn : s.orders k = some n) :
    ∃ o₀, (s.setOrder r o).heap (k, n) = some o₀ := by
  by_cases hr : (k, n) = r
  · exact ⟨o, by rw [hr]; exact System.heap_setOrder⟩
  · obtain ⟨o₀, ho₀⟩ := hs.kept k n hn
    exact ⟨o₀, (Function.update_of_ne hr _ _).trans ho₀⟩

variable [DecidableEq T]

/-- Orders that no other call is at work on may change. -/
lemma Sound.others (hs : Sound s) {c : Call K} {k : K} (hc : s.call t = some c) (hk : c.pc.key = some k)
    (hsame : ∀ k', k' ≠ k → s.SameAt s' k') :
    ∀ t' d k', t' ≠ t → s.call t' = some d → d.pc.key = some k' → s.SameAt s' k' := by
  intro t' d k' ht hd hk'
  refine hsame k' fun h => ht (hs.turns.excl hc hd hk (h ▸ hk'))

lemma not_recover_update (hno : ∀ t' todo pc, s.call t' ≠ some ⟨.recover todo, pc⟩) {c' : Option (Call K)}
    (hc : ∀ todo pc, c' ≠ some ⟨.recover todo, pc⟩) :
    ∀ t' todo pc, update s.call t c' t' ≠ some ⟨.recover todo, pc⟩ := by
  intro t' todo pc h
  by_cases ht : t' = t
  · rw [ht, Function.update_self] at h
    exact hc _ _ h
  · rw [Function.update_of_ne ht] at h
    exact hno _ _ _ h

/-- A call that is not `recover` goes on and the orders that others work on stay. -/
lemma Sound.post (hs : Sound s) {c' : Option (Call K)} (hno : ∀ t' todo pc, s.call t' ≠ some ⟨.recover todo, pc⟩)
    (hc : ∀ todo pc, c' ≠ some ⟨.recover todo, pc⟩) (hcall : s'.call = update s.call t c') (hT : Turns s')
    (hkept : ∀ k n, s'.orders k = some n → ∃ o, s'.heap (k, n) = some o)
    (hself : ∀ c, c' = some c → s'.Holding c.pc)
    (hsame : ∀ t' d k', t' ≠ t → s.call t' = some d → d.pc.key = some k' → s.SameAt s' k') : Sound s' := by
  refine ⟨hkept, hT, hs.holding_step hcall hself hsame, fun t' todo pc h => ?_⟩
  rw [hcall] at h
  exact absurd h (not_recover_update hno hc t' todo pc)

/-- `recover` goes on, and puts no order that was not stored. -/
lemma Sound.recover (hs : Sound s) {todo todo' : List (Ref K)} {pc pc' : Pc K}
    (hc : s.call t = some ⟨.recover todo, pc⟩) (hcall : s'.call = update s.call t (some ⟨.recover todo', pc'⟩))
    (hin : s'.inflight = s.inflight) (hr : s'.ready = s.ready) (horders : s'.orders = s.orders)
    (hkept : ∀ k n, s'.orders k = some n → ∃ o, s'.heap (k, n) = some o) (hself : s'.Holding pc')
    (htodo : ∀ r ∈ todo', r ∈ todo) (href : ∀ r, pc'.ref = some r → r ∈ todo ∨ pc.ref = some r) : Sound s' := by
  have hT := hs.turns.recover hc hcall hin hr
  have hal := (hs.turns.alone _ _ _ hc).2
  have hrefs := hs.refs _ _ _ hc
  have hcall' : ∀ t' d, s'.call t' = some d → t' = t ∧ d = ⟨.recover todo', pc'⟩ := by
    intro t' d hd
    rw [hcall] at hd
    by_cases ht : t' = t
    · rw [ht, Function.update_self] at hd
      exact ⟨ht, (Option.some.inj hd).symm⟩
    · rw [Function.update_of_ne ht, hal t' ht] at hd
      cases hd
  refine ⟨hkept, hT, fun t' d hd => ?_, fun t' todo₁ pc₁ hd => ?_⟩
  · obtain ⟨-, rfl⟩ := hcall' t' d hd
    exact hself
  · obtain ⟨-, hd'⟩ := hcall' _ _ hd
    cases hd'
    refine ⟨fun r hr => ?_, fun r hr => ?_⟩
    · rw [horders]
      exact hrefs.1 r (htodo r hr)
    · rw [horders]
      exact (href r hr).elim (hrefs.1 r) (hrefs.2 r)

variable [DecidableEq K]

/-- The synchronous part of a call that has no key in flight. -/
lemma Sound.next (hs : Sound s) (hno : ∀ t' todo pc, s.call t' ≠ some ⟨.recover todo, pc⟩)
    (hb : busy (s.call t) = none) (req : Request K) (nx : Next K)
    (hres : ∀ r, nx = .resume r → r.1 ∉ s.inflight ∧ s.Has r fun o => o.state = some .settled) :
    Sound (nx.apply s t req) := by
  have hsame : ∀ (s' : System K T), s'.heap = s.heap → s'.orders = s.orders → ∀ k, s.SameAt s' k :=
    fun s' hh ho k => ⟨by rw [ho], fun n => by rw [hh]⟩
  cases nx with
  | answer a =>
    refine hs.post hno none_ne_recover rfl (hs.turns.post hno none_ne_recover rfl hb.symm rfl) hs.kept (fun _ h => by cases h) ?_
    exact fun _ _ _ _ _ _ => hsame _ rfl rfl _
  | reconcile r j h =>
    refine hs.post hno post_ne_recover rfl (hs.turns.post hno post_ne_recover rfl hb.symm rfl) hs.kept (fun c h => ?_) ?_
    · cases h
      trivial
    · exact fun _ _ _ _ _ _ => hsame _ rfl rfl _
  | check e =>
    refine hs.post hno post_ne_recover rfl (hs.turns.post hno post_ne_recover rfl hb.symm rfl) hs.kept (fun c h => ?_) ?_
    · cases h
      trivial
    · exact fun _ _ _ _ _ _ => hsame _ rfl rfl _
  | resume r =>
    obtain ⟨hk, hhas⟩ := hres r rfl
    refine hs.post hno post_ne_recover rfl (hs.turns.enter hno hk rfl hb rfl rfl) hs.kept (fun c h => ?_) ?_
    · cases h
      exact hhas
    · exact fun _ _ _ _ _ _ => hsame _ rfl rfl _

/-- **One step keeps what calls rely on**, as long as they do not overlap. -/
theorem Sound.step (hs : Sound s) (hl : s.NoOverlap l) (hst : Step cfg s l s') : Sound s' := by
  have hrefl : ∀ (s₁ : System K T), s₁.heap = s.heap → s₁.orders = s.orders → ∀ k, s.SameAt s₁ k :=
    fun s₁ hh ho k => ⟨by rw [ho], fun n => by rw [hh]⟩
  cases hst with
  | @call t req now hr hc =>
    refine hs.next (hs.turns.not_recover_of_ready hr) (by rw [hc]; rfl) req _ fun r hn => ?_
    obtain ⟨o, ⟨-, hro, ho, -, -, hk⟩, hset⟩ := begin_resume hn
    exact ⟨hk, hro, o, ho, hset⟩
  | @proceed t req rep r o now hc ho =>
    refine hs.next (hs.turns.not_recover_of_post hc) (by rw [hc]; rfl) req _ fun r' hn => ?_
    rw [hn] at hl
    rcases proceed_cases cfg s now req r o with
      ⟨a, ha⟩ | ⟨hset, hp⟩ | ⟨_, hp⟩
    · cases hn.symm.trans ha
    · cases hn.symm.trans hp
      exact ⟨hl.1, hl.2, o, ho, hset⟩
    · cases hn.symm.trans hp
  | @exit t c req a hc he =>
    have hno : ∀ t' todo pc, s.call t' ≠ some ⟨.recover todo, pc⟩ := by
      cases he <;> exact hs.turns.not_recover_of_post hc
    have hb : busy (s.call t) = none := by
      rw [hc]
      cases he <;> rfl
    exact hs.next hno hb req (.answer a) fun _ h => by cases h
  | @act t req rep r hc =>
    obtain ⟨hk, hfail, hr⟩ := hl
    have hno := hs.turns.not_recover_of_post hc
    refine hs.post hno post_ne_recover rfl (hs.turns.enter hno hk rfl (by rw [hc]; rfl) rfl rfl) hs.kept (fun c h => ?_)
      fun _ _ _ _ _ _ => hrefl _ rfl rfl _
    cases h
    obtain ⟨o, ho⟩ := hs.kept r.1 r.2 (hr rfl)
    have hso : s.stored r.1 = some o := (System.stored_of_orders (hr rfl)).trans ho
    exact ⟨⟨o, ho, .inl (hfail o hso)⟩, hfail⟩
  | @create t req rep n hc hf =>
    obtain ⟨hk, hfail, -⟩ := hl
    have hno := hs.turns.not_recover_of_post hc
    refine hs.post hno post_ne_recover rfl (hs.turns.enter hno hk rfl (by rw [hc]; rfl) rfl rfl)
      (fun _ _ h => hs.kept_setOrder h) (fun c h => ?_) fun t' d k' ht hd hk' => ?_
    · cases h
      refine ⟨⟨_, System.heap_setOrder, .inr ⟨rfl, rfl⟩⟩, fun o ho => hfail o ?_⟩
      exact (System.stored_setOrder_of_ne hf.2).symm.trans ho
    · have hne : k' ≠ req.key := fun h => hs.turns.key_ne hno hk hd (hk'.trans (congrArg some h))
      exact System.sameAt_setOrder (s := s) (r := (req.key, n)) (o := .new req.commitment req.limit) hne
  | @move t c c' l lock hc hm =>
    obtain ⟨task, pc⟩ := c
    have hhold : s.Holding c'.pc := by
      refine hm.holding (hs.holding t _ hc) fun todo htask => ?_
      obtain rfl : task = .recover todo := htask
      exact hs.refs _ _ _ hc
    cases task with
    | post req rep =>
      obtain ⟨pc', rfl, hkey⟩ := hm.of_post
      have hno := hs.turns.not_recover_of_post hc
      refine hs.post hno post_ne_recover rfl (hs.turns.post hno post_ne_recover rfl (by rw [hc]; exact hkey) rfl) hs.kept (fun c h => ?_)
        fun _ _ _ _ _ _ => hrefl _ rfl rfl _
      cases h
      exact hhold
    | recover todo =>
      obtain ⟨todo', pc', rfl, htodo, href⟩ := hm.of_recover
      exact hs.recover hc rfl rfl rfl rfl hs.kept hhold htodo href
  | @put t r o o' c c' l lock w hc ho hp =>
    obtain ⟨task, pc⟩ := c
    obtain ⟨task', pc'⟩ := c'
    obtain rfl : task' = task := hp.task_eq
    have hhold : (s.put r o' w).Holding pc' := hp.holding
    cases task' with
    | recover todo =>
      have hro := (hs.refs _ _ _ hc).2 r hp.ref.1
      refine hs.recover hc rfl rfl rfl (System.orders_put_of_eq (o := o') (w := w) hro)
        (fun _ _ h => hs.kept_put (o := o') (w := w) h) hhold (fun _ h => h) fun r' h => .inr ?_
      rw [hp.ref.2 r' h]
      exact hp.ref.1
    | post req rep =>
      have hno := hs.turns.not_recover_of_post hc
      have hput : ∀ k, k ≠ r.1 → s.SameAt (((s.put r o' w).setCall t (some ⟨.post req rep, pc'⟩)).setLock lock) k :=
        fun k hk => System.sameAt_put (s := s) (o := o') (w := w) hk
      rcases hp.key with ⟨j, h, hpc, rfl, hpc'⟩ | ⟨hkey, hkey'⟩
      · obtain rfl : pc = _ := hpc
        obtain rfl : pc' = _ := hpc'
        refine hs.post hno post_ne_recover rfl (hs.turns.post hno post_ne_recover rfl (by rw [hc]; rfl) rfl) (fun _ _ h => hs.kept_put (w := w) h)
          (fun c h => ?_) fun t' d k' ht hd hk' => hput k' ?_
        · cases h
          trivial
        · exact fun h => hs.turns.key_ne hno hl.1 hd (hk'.trans (congrArg some h))
      · have hkey'' := hkey' ⟨_, _, rfl⟩
        refine hs.post hno post_ne_recover rfl (hs.turns.post hno post_ne_recover rfl ?_ rfl) (fun _ _ h => hs.kept_put (w := w) h)
          (fun c h => ?_) (hs.others hc hkey hput)
        · rw [hc]
          exact hkey''.trans hkey.symm
        · cases h
          exact hhold
  | @present t task r o limit hc hne ho =>
    have hh : s.Has r _ := hs.holding t _ hc
    have hhold : (s.setOrder r { o with state := some .inserted }).Holding (.rooting r) :=
      ⟨hh.1, _, System.heap_setOrder, rfl⟩
    cases task with
    | recover todo =>
      exact hs.recover hc rfl rfl rfl rfl (fun _ _ h => hs.kept_setOrder h) hhold (fun _ h => h)
        fun r' h => .inr h
    | post req rep =>
      have hno := hs.turns.not_recover_of_post hc
      refine hs.post hno post_ne_recover rfl (hs.turns.post hno post_ne_recover rfl (by rw [hc]; rfl) rfl)
        (fun _ _ h => hs.kept_setOrder h) (fun c h => ?_) (hs.others hc rfl fun k hk => ?_)
      swap
      · exact System.sameAt_setOrder (s := s) (o := { o with state := some .inserted }) hk
      cases h
      exact hhold
  | @broadcast t task r j o h hc ho hf =>
    have hhold : s.Holding (.sent r j h) := by
      have hh : s.Holding (.sending r j) := hs.holding t _ hc
      cases j <;> exact hh
    cases task with
    | recover todo =>
      exact hs.recover hc rfl rfl rfl rfl hs.kept hhold (fun _ h => h) fun r' h => .inr h
    | post req rep =>
      have hno := hs.turns.not_recover_of_post hc
      refine hs.post hno post_ne_recover rfl (hs.turns.post hno post_ne_recover rfl (by rw [hc]; rfl) rfl) hs.kept (fun c h => ?_)
        fun _ _ _ _ _ _ => hrefl _ rfl rfl _
      cases h
      exact hhold
  | @leave t req rep r a hc =>
    have hno := hs.turns.not_recover_of_post hc
    refine hs.post hno none_ne_recover rfl (hs.turns.leave hno (by rw [hc]; rfl) rfl rfl) hs.kept (fun c h => by cases h)
      fun _ _ _ _ _ _ => hrefl _ rfl rfl _
  | @ready t hc =>
    have hnone : ∀ t', update s.call t none t' = none := by
      intro t'
      by_cases ht : t' = t
      · rw [ht, Function.update_self]
      · rw [Function.update_of_ne ht]
        exact (hs.turns.alone _ _ _ hc).2 t' ht
    refine ⟨hs.kept, hs.turns.listen hc rfl rfl, fun t' d hd => ?_, fun t' todo pc hd => ?_⟩
    · cases (hnone t').symm.trans hd
    · cases (hnone t').symm.trans hd
  | chain _ => exact ⟨hs.kept, ⟨hs.turns.unique, hs.turns.flight, hs.turns.alone⟩, hs.holding, hs.refs⟩
  | @restart t todo _ hf =>
    have hbusy : ∀ t', busy ((s.restart t todo).call t') = none := by
      intro t'
      cases hd : (s.restart t todo).call t' with
      | none => rfl
      | some d =>
        obtain ⟨-, rfl⟩ := System.call_restart hd
        rfl
    refine ⟨fun k n hn => ?_, ⟨fun t₁ t₂ k h => ?_, fun k => ?_, fun t' todo' pc hd => ⟨rfl, fun t'' ht => ?_⟩⟩,
      fun t' d hd => ?_, fun t' todo' pc hd => ?_⟩
    · obtain ⟨o, ho, rfl⟩ := Option.map_eq_some_iff.mp hn
      exact ⟨o, ho⟩
    · cases (hbusy t₁).symm.trans h
    · simp only [hbusy]
      simp [System.restart]
    · obtain ⟨rfl, -⟩ := System.call_restart hd
      cases hd' : (s.restart t' todo).call t'' with
      | none => rfl
      | some d => exact absurd (System.call_restart hd').1 ht
    · obtain ⟨-, rfl⟩ := System.call_restart hd
      trivial
    · obtain ⟨-, hd'⟩ := System.call_restart hd
      cases hd'
      refine ⟨fun r hr => ?_, fun r hr => by cases hr⟩
      obtain ⟨k, hk, rfl⟩ := List.mem_map.mp hr
      obtain ⟨o, ho⟩ := Option.ne_none_iff_exists'.mp ((hf k).mp hk)
      show (s.file k).map _ = _
      rw [ho]
      rfl

end Step

/-! ### Where the transactions are -/

section Accounted

variable {s s' : System K T} {t : T} {l : Label K T} {r : Ref K} {o o' : Order} {lock : Option T} {i j : Kind}
  {k : K} {h : ℕ}

lemma Order.Records.not_failed (hr : o.Records h j) : o.state ≠ some .failed := by
  cases j with
  | settle => exact hr.2.2
  | insert =>
    intro hf
    rcases hr.2 with h' | h' <;> cases hf.symm.trans h'

/-- A receipt leaves the record of what stands. -/
lemma Order.Records.finish {c : Chain K} {h₀ : ℕ} {rc : Receipt} (hr : o.Records h j)
    (hp : o.pending = some (i, h₀)) (hrc : c.receipt h₀ = some rc) (hst : c.Standing j k h) :
    (o.finish i rc).Records h j := by
  have hrev : rc = .reverted → h₀ ≠ h := by
    rintro rfl rfl
    obtain ⟨x, hx, -, -, hne⟩ := hst
    simp only [Chain.receipt, hx, Option.bind_some] at hrc
    exact hne hrc
  cases i with
  | settle =>
    obtain ⟨hstate, htx⟩ := Order.pending_settle.mp hp
    cases j with
    | settle =>
      cases rc with
      | ok logs => exact ⟨hr.1, by simp [Order.Stands, Order.finish]⟩
      | reverted => exact absurd (Option.some.inj (htx.symm.trans hr.1)) (hrev rfl)
    | insert => rcases hr.2 with h' | h' <;> cases hstate.symm.trans h'
  | insert =>
    obtain ⟨hstate, htx⟩ := Order.pending_insert.mp hp
    cases j with
    | settle => cases rc <;> exact ⟨hr.1, by simp [Order.Stands, Order.finish]⟩
    | insert =>
      cases rc with
      | ok logs => exact ⟨hr.1, .inr rfl⟩
      | reverted => exact absurd (Option.some.inj (htx.symm.trans hr.1)) (hrev rfl)

lemma System.Has.of_stored {P : Order → Prop} {o₀ : Order} (hP : s.Has r P) (ho : s.heap r = some o)
    (ho₀ : s.stored r.1 = some o₀) : o₀ = o ∧ P o := by
  obtain ⟨o₁, hs₁, hh₁, hP₁⟩ := hP.stored
  obtain rfl := Option.some.inj (ho.symm.trans hh₁)
  exact ⟨Option.some.inj (ho₀.symm.trans hs₁), hP₁⟩

/-- A put leaves the record of what stands. -/
lemma Puts.records {c c' : Call K} (hp : Puts s t r o c l c' o' lock) (hh : s.Holding c.pc)
    (hpend : ∀ i h₀, c.pc = .reconciling r i h₀ → s.Has r fun o => o.pending = some (i, h₀))
    (ho : s.heap r = some o) {o₀ : Order} (ho₀ : s.stored r.1 = some o₀) (hr : o₀.Records h j)
    (hst : s.chain.Standing j k h) : o'.Records h j := by
  cases hp with
  | @reconciled task i h₀ rc hrc =>
    obtain ⟨rfl, hpd⟩ := (hpend _ _ rfl).of_stored ho ho₀
    exact hr.finish hpd hrc hst
  | @recorded task i h₀ =>
    cases i with
    | settle =>
      obtain ⟨-, hf⟩ : s.Unpaid r := hh
      exact absurd (hf _ ho₀) hr.not_failed
    | insert =>
      obtain ⟨rfl, hset⟩ := System.Has.of_stored hh ho ho₀
      cases j with
      | settle => exact ⟨hr.1, by simp [Order.Stands, Order.sent]⟩
      | insert => rcases hr.2 with h' | h' <;> cases hset.symm.trans h'
  | @confirmed task i h₀ rc hrc =>
    obtain ⟨rfl, hpd⟩ := System.Has.of_stored hh ho ho₀
    exact hr.finish hpd hrc hst
  | rooted =>
    obtain ⟨rfl, -⟩ := System.Has.of_stored hh ho ho₀
    cases j <;> exact hr
  | @caught req rep i timedOut =>
    cases i with
    | settle =>
      rcases hh with ⟨-, hf⟩ | hh
      · exact absurd (hf _ ho₀) hr.not_failed
      · obtain ⟨rfl, -, htx⟩ := System.Has.of_stored hh ho ho₀
        have hcaught : o₀.caught .settle = o₀ := by simp [Order.caught, htx]
        rw [hcaught]
        exact hr
    | insert =>
      obtain ⟨rfl, -⟩ := System.Has.of_stored hh ho ho₀
      exact hr

/-- A step that takes no call from a broadcast and leaves the stored orders. -/
lemma System.Accounted.keep [DecidableEq T] (ha : s.Accounted j) {c' : Option (Call K)}
    (hstand : ∀ k h, s'.chain.Standing j k h → s.chain.Standing j k h) (hcall : s'.call = update s.call t c')
    (hc : ∀ task r h, s.call t ≠ some ⟨task, .sent r j h⟩)
    (hstored : ∀ k o h, s.stored k = some o → o.Records h j → ∃ o', s'.stored k = some o' ∧ o'.Records h j) :
    s'.Accounted j := by
  intro k h hs'
  rcases ha k h (hstand k h hs') with ⟨t', task, r, ht', rfl⟩ | ⟨o, ho, hr⟩
  · have hne : t' ≠ t := by
      rintro rfl
      exact hc _ _ _ ht'
    refine .inl ⟨t', task, r, ?_, rfl⟩
    rw [hcall, Function.update_of_ne hne]
    exact ht'
  · exact .inr (hstored k o h ho hr)

variable [DecidableEq K] {cfg : Config}

lemma Moves.sent {c c' : Call K} (hm : Moves cfg s t c l c' lock) (hc : c.pc = .sent r j h) : l = .lost t j := by
  cases hm <;> cases hc
  rfl

variable [DecidableEq T]

lemma System.Accounted.next (ha : s.Accounted j) (req : Request K) (nx : Next K)
    (hc : ∀ task r h, s.call t ≠ some ⟨task, .sent r j h⟩) : (nx.apply s t req).Accounted j := by
  cases nx <;> exact ha.keep (fun _ _ h => h) rfl hc fun _ o _ ho hr => ⟨o, ho, hr⟩

/-- **One step keeps track of the transactions**, unless it loses one. -/
theorem System.Accounted.step (ha : s.Accounted j) (hs : Sound s) (hl : s.NoOverlap l) (hrec : s.Recorded j l)
    (hst : Step cfg s l s') : s'.Accounted j := by
  cases hst with
  | call _ _ _ _ hc => exact ha.next _ _ fun _ _ _ h => by cases hc.symm.trans h
  | proceed _ hc _ => exact ha.next _ _ fun _ _ _ h => by cases hc.symm.trans h
  | exit hc he =>
    refine ha.keep (fun _ _ h => h) rfl (fun _ _ _ h => ?_) fun _ o _ ho hr => ⟨o, ho, hr⟩
    obtain rfl := Option.some.inj (hc.symm.trans h)
    cases he
  | act hc =>
    exact ha.keep (fun _ _ h => h) rfl (fun _ _ _ h => by cases hc.symm.trans h) fun _ o _ ho hr => ⟨o, ho, hr⟩
  | create _ hc hf =>
    refine ha.keep (fun _ _ h => h) rfl (fun _ _ _ h => by cases hc.symm.trans h) fun _ o _ ho hr => ⟨o, ?_, hr⟩
    exact (System.stored_setOrder_of_ne hf.2).trans ho
  | @move t c c' l lock hc hm =>
    refine ha.keep (fun _ _ h => h) rfl (fun task r h hsent => ?_) fun _ o _ ho hr => ⟨o, ho, hr⟩
    obtain rfl := Option.some.inj (hc.symm.trans hsent)
    obtain rfl := hm.sent rfl
    exact hrec rfl
  | @put t r o o' c c' l lock w hc ho hp =>
    have hstored : (s.put r o' w).stored r.1 = some o' := System.stored_put
    intro k h hstand
    rcases ha k h hstand with ⟨t', task, r', ht', rfl⟩ | ⟨o₀, ho₀, hr⟩
    · by_cases ht : t' = t
      · subst ht
        obtain rfl := Option.some.inj (hc.symm.trans ht')
        cases hp with
        | recorded =>
          refine .inr ⟨_, hstored, ?_⟩
          cases j
          · exact ⟨rfl, by simp [Order.Stands, Order.sent]⟩
          · exact ⟨rfl, .inl rfl⟩
      · exact .inl ⟨t', task, r', (Function.update_of_ne ht _ _).trans ht', rfl⟩
    · by_cases hk : k = r.1
      · subst hk
        refine .inr ⟨o', hstored, hp.records (hs.holding t c hc) (fun i h₀ hpc => ?_) ho ho₀ hr hstand⟩
        cases hp with
        | reconciled _ =>
          cases hpc
          exact hl.2
        | _ => cases hpc
      · exact .inr ⟨o₀, (System.sameAt_put (w := w) hk).stored.trans ho₀, hr⟩
  | @present t task r o limit hc _ ho =>
    refine ha.keep (fun _ _ h => h) rfl (fun _ _ _ h => by cases hc.symm.trans h) fun k o₀ h ho₀ hr => ?_
    by_cases hk : k = r.1
    · subst hk
      obtain ⟨o₁, hs₁, hh₁, hset⟩ := System.Has.stored (hs.holding t _ hc)
      obtain rfl := Option.some.inj (ho.symm.trans hh₁)
      obtain rfl := Option.some.inj (ho₀.symm.trans hs₁)
      refine ⟨_, System.stored_setOrder (hs.holding t _ hc).1, ?_⟩
      cases j with
      | settle => exact ⟨hr.1, by simp [Order.Stands]⟩
      | insert => exact ⟨hr.1, .inr rfl⟩
    · exact ⟨o₀, (System.sameAt_setOrder hk).stored.trans ho₀, hr⟩
  | @broadcast t task r i o h hc ho hf =>
    intro k h' hstand
    rcases Chain.standing_put hstand with ⟨rfl, hi, rfl⟩ | hstand
    · obtain rfl : i = j := hi
      exact .inl ⟨t, task, r, Function.update_self .., rfl⟩
    · rcases ha k h' hstand with ⟨t', task', r', ht', rfl⟩ | hr
      · have hne : t' ≠ t := by
          rintro rfl
          cases hc.symm.trans ht'
        exact .inl ⟨t', task', r', (Function.update_of_ne hne _ _).trans ht', rfl⟩
      · exact .inr hr
  | leave hc =>
    exact ha.keep (fun _ _ h => h) rfl (fun _ _ _ h => by cases hc.symm.trans h) fun _ o _ ho hr => ⟨o, ho, hr⟩
  | ready hc =>
    exact ha.keep (fun _ _ h => h) rfl (fun _ _ _ h => by cases hc.symm.trans h) fun _ o _ ho hr => ⟨o, ho, hr⟩
  | chain hc => exact fun k h hstand => ha k h (hc.standing hstand)
  | @restart t todo _ _ =>
    intro k h hstand
    obtain ⟨o, ho, hr⟩ := hrec k h hstand
    exact .inr ⟨o, System.stored_restart.trans ho, hr⟩

end Accounted

end ShadeTree.Registrar
