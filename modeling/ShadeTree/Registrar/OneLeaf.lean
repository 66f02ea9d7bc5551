import Mathlib.Data.Set.Function
import ShadeTree.Registrar.Backing

/-!
# One payment, one leaf

An order claims its commitment from the act of a call on, until it is inserted or failed and nothing of it is
pending.  The checks read whether the commitment is a leaf; no one looks for another order that claims it, and
the registrar awaits between the checks and the act.  `Apart` is the condition that at the act no other order
claims the commitment and its leaf, if it has one, is not of another order.  Under it every inserted order has
an insert of its own.
-/

namespace ShadeTree.Registrar

open Function (update)
open ShadeTree.Contracts
open ShadeTree.Lib

variable {K T : Type}

/-- The order may still come to an insert. -/
def Order.Open (o : Order) : Prop :=
  o.state = some .settling ∨ o.state = some .settled ∨ o.state = some .inserting

/-- The call goes on with its order, whatever it becomes meanwhile. -/
def Pc.Engaged : Pc K → Prop
  | .reconciling _ _ _ => True
  | .locking _ _ => True
  | .simulating _ _ => True
  | .sending _ _ => True
  | .sent _ _ _ => True
  | .waiting _ _ _ => True
  | .probing _ _ => True
  | _ => False

/-- The call may insert the leaf of the object. -/
def Call.Wants (c : Call K) (r : Ref K) (o : Order) : Prop :=
  (c.pc.ref = some r ∧ (c.pc.Engaged ∨ o.Open)) ∨ (r ∈ c.task.todo ∧ o.Open)

/-- The order of the authorization `k` claims the commitment. -/
inductive System.Claims (s : System K T) (k : K) (commitment : ℕ) : Prop where
  | call {t : T} {c : Call K} {r : Ref K} {o : Order} :
      s.call t = some c → s.heap r = some o → c.Wants r o → r.1 = k → o.commitment = commitment →
      Claims s k commitment
  | stored {o : Order} : s.stored k = some o → o.Open → o.commitment = commitment → Claims s k commitment
  | file {o : Order} : s.file k = some o → o.Open → o.commitment = commitment → Claims s k commitment
  | pending {h : ℕ} {j : Job K} :
      s.chain.tx h = some ⟨j, none⟩ → j.key = k → j.commitment = commitment → Claims s k commitment

/-- The commitment is a leaf, and an insert for `k` put it there. -/
def Chain.LeafOf (c : Chain K) (k : K) (commitment : ℕ) : Prop :=
  c.limitOf commitment ≠ 0 ∧ ∃ h j root, j.kind = .insert ∧ j.key = k ∧ j.commitment = commitment ∧
    c.Mined h j [.Inserted commitment j.limit (c.set.leaves commitment).index root]

/-- An insert of the order was mined, as the leaf `i`. -/
def Chain.Inserted (c : Chain K) (k : K) (o : Order) (i : ℕ) : Prop :=
  ∃ h root, c.Mined h (o.job k .insert) [.Inserted o.commitment o.limit i root]

/-- The condition on the act of a call: no other order claims the commitment, and none has its leaf. -/
def System.Apart (s : System K T) : Label K T → Prop
  | .acted _ r _ commitment _ =>
    (s.chain.limitOf commitment ≠ 0 → s.chain.LeafOf r.1 commitment) ∧ ∀ k, s.Claims k commitment → k = r.1
  | _ => True

/-- The stored order of `k` was paid, and has the commitment still or is about to. -/
def System.Occupies (s : System K T) (k : K) (commitment : ℕ) : Prop :=
  ∃ o, s.stored k = some o ∧ o.commitment = commitment ∧ o.Paid ∧
    (o.state = some .inserted → s.chain.LeafOf k commitment)

/-! ### Where claims come from -/

section Wants

variable {cfg : Config} {s : System K T} {t : T} {l : Label K T} {lock : Option T} {r r' : Ref K} {o o' : Order}
  {c c' : Call K}

lemma Order.pending_open {j : Kind} {h : ℕ} (hp : o.pending = some (j, h)) : o.Open := by
  cases j with
  | settle => exact .inl (Order.pending_settle.mp hp).1
  | insert => exact .inr (.inr (Order.pending_insert.mp hp).1)

lemma Order.resume_open (h : (o.resume r).ref = some r') : o.Open := by
  unfold Order.resume at h
  split_ifs at h with hst
  · exact .inr (.inl hst)
  · cases h

lemma Order.entry_open (h : (o.entry r).ref = some r') : o.Open := by
  unfold Order.entry at h
  cases hp : o.pending with
  | none =>
    rw [hp] at h
    exact Order.resume_open h
  | some jh => exact Order.pending_open hp

/-- A put leaves the order open only where the call wanted it. -/
lemma Puts.wants (hp : Puts s t r o c l c' o' lock) (h : c'.pc.Engaged ∨ o'.Open) : c.Wants r o := by
  refine .inl ⟨hp.ref.1, ?_⟩
  cases hp with
  | @rooted task => exact h.imp (fun h => by cases task <;> cases h) id
  | @caught _ _ j _ =>
    rcases h with h | h
    · exact h.elim
    · cases j with
      | settle =>
        by_cases htx : o.settleTx.isSome
        · exact .inr (by simpa [Order.Open, Order.caught, htx] using h)
        · simp [Order.Open, Order.caught, htx] at h
      | insert => exact .inr h
  | _ => exact .inl trivial

variable [DecidableEq K]

/-- A call comes to want only what it wanted. -/
lemma Moves.wants (hm : Moves cfg s t c l c' lock) (ho : s.heap r' = some o') (hw : c'.Wants r' o') : c.Wants r' o' := by
  cases hm with
  | receiptFails => exact hw.imp (fun h => by cases h.1) id
  | caught => exact hw.imp (fun h => by cases h.1) id
  | readUsed => exact hw.imp (fun h => by cases h.1) id
  | readActive => exact hw.imp (fun h => by cases h.1) id
  | @next r todo o ho₁ =>
    rcases hw with ⟨href, -⟩ | ⟨hmem, hopen⟩
    · obtain rfl := Order.entry_ref href
      obtain rfl := Option.some.inj (ho.symm.trans ho₁)
      exact .inr ⟨List.mem_cons_self, Order.entry_open href⟩
    · exact .inr ⟨List.mem_cons_of_mem _ hmem, hopen⟩
  | @again todo r o ho₁ =>
    rcases hw with ⟨href, -⟩ | hw
    · obtain rfl := Order.resume_ref href
      obtain rfl := Option.some.inj (ho.symm.trans ho₁)
      exact .inl ⟨rfl, .inr (Order.resume_open href)⟩
    · exact .inr hw
  | rootFails => exact hw
  | _ => exact hw.imp (fun h => ⟨h.1, .inl trivial⟩) id

end Wants

section Claims

variable {cfg : Config} {s s' : System K T} {t : T} {l : Label K T} {r : Ref K} {o' : Order} {k : K} {cm : ℕ}
  {c' : Option (Call K)}

lemma System.Claims.initial {c : Chain K} (hc : c.Start) : ¬ (System.initial c : System K T).Claims k cm := by
  intro h
  cases h with
  | call h => cases h
  | stored h => cases h
  | file h => cases h
  | @pending h j hx => cases (hc.noTx h).symm.trans hx

variable [DecidableEq T]

/-- A call goes on and no order changes. -/
lemma System.Claims.go {P : Prop} (h : s'.Claims k cm) (hchain : s'.chain = s.chain) (hheap : s'.heap = s.heap)
    (horders : s'.orders = s.orders) (hfile : s'.file = s.file) (hcall : s'.call = update s.call t c')
    (hold : s.Claims k cm → P)
    (hnew : ∀ c r o, c' = some c → s.heap r = some o → c.Wants r o → r.1 = k → o.commitment = cm → P) : P := by
  cases h with
  | @call t' c r o hc ho hw hk hcm =>
    rw [hheap] at ho
    rw [hcall] at hc
    by_cases ht : t' = t
    · rw [ht, Function.update_self] at hc
      exact hnew c r o hc ho hw hk hcm
    · rw [Function.update_of_ne ht] at hc
      exact hold (.call hc ho hw hk hcm)
  | stored ho hopen hcm =>
    simp only [System.stored, horders, hheap] at ho
    exact hold (.stored ho hopen hcm)
  | file ho hopen hcm => exact hold (.file (hfile ▸ ho) hopen hcm)
  | pending hx hk hcm => exact hold (.pending (hchain ▸ hx) hk hcm)

/-- A call ends. -/
lemma System.Claims.stop (h : s'.Claims k cm) (hchain : s'.chain = s.chain) (hheap : s'.heap = s.heap)
    (horders : s'.orders = s.orders) (hfile : s'.file = s.file) (hcall : s'.call = update s.call t none) :
    s.Claims k cm :=
  h.go hchain hheap horders hfile hcall id fun _ _ _ h => by cases h

variable [DecidableEq K]

/-- A call goes on and an order object is made or changed. -/
lemma System.Claims.write {P : Prop} (h : s'.Claims k cm) (hb : Backed s) (hchain : s'.chain = s.chain)
    (hheap : s'.heap = update s.heap r (some o')) (hal : ∀ o, s.heap r = some o → o.Alike o')
    (horders : s'.orders = s.orders ∨ s'.orders = update s.orders r.1 (some r.2))
    (hfile : s'.file = s.file ∨ s'.file = s'.stored) (hcall : s'.call = update s.call t c')
    (hold : s.Claims k cm → P) (hopen : o'.Open → r.1 = k → o'.commitment = cm → P)
    (hnew : ∀ c r o, c' = some c → s'.heap r = some o → c.Wants r o → r.1 = k → o.commitment = cm → P) : P := by
  have hself : s'.heap r = some o' := by rw [hheap, Function.update_self]
  have hother : ∀ r', r' ≠ r → s'.heap r' = s.heap r' := by
    intro r' hr
    rw [hheap, Function.update_of_ne hr]
  have hstored : ∀ o, s'.stored k = some o → o.Open → o.commitment = cm → P := by
    intro o ho ho' hcm
    obtain ⟨n, hn, hh⟩ := Option.bind_eq_some_iff.mp ho
    by_cases hr : (k, n) = r
    · subst hr
      obtain rfl := Option.some.inj (hself.symm.trans hh)
      exact hopen ho' rfl hcm
    · have hn' : s.orders k = some n := by
        rcases horders with h | h
        · rw [← h]
          exact hn
        · rw [h] at hn
          by_cases hk : k = r.1
          · subst hk
            rw [Function.update_self] at hn
            exact absurd (by rw [← Option.some.inj hn]) hr
          · rwa [Function.update_of_ne hk] at hn
      refine hold (.stored (o := o) ?_ ho' hcm)
      rw [System.stored, hn']
      exact (hother _ hr).symm.trans hh
  cases h with
  | @call t' c r' o hc ho hw hk hcm =>
    rw [hcall] at hc
    by_cases ht : t' = t
    · rw [ht, Function.update_self] at hc
      exact hnew c r' o hc ho hw hk hcm
    · rw [Function.update_of_ne ht] at hc
      by_cases hr : r' = r
      · subst hr
        obtain rfl := Option.some.inj (hself.symm.trans ho)
        rcases hw with ⟨href, heng | ho'⟩ | ⟨-, ho'⟩
        · obtain ⟨o₁, ho₁, -⟩ := hb.rests t' c hc r' href
          exact hold (.call hc ho₁ (.inl ⟨href, .inl heng⟩) hk ((hal o₁ ho₁).1.symm.trans hcm))
        · exact hopen ho' hk hcm
        · exact hopen ho' hk hcm
      · exact hold (.call hc ((hother r' hr).symm.trans ho) hw hk hcm)
  | stored ho ho' hcm => exact hstored _ ho ho' hcm
  | file ho ho' hcm =>
    rcases hfile with h | h
    · exact hold (.file (h ▸ ho) ho' hcm)
    · exact hstored _ (h ▸ ho) ho' hcm
  | pending hx hk hcm => exact hold (.pending (hchain ▸ hx) hk hcm)

/-- The synchronous part of a call makes no claim, when what it resumes did. -/
lemma System.Claims.next {req : Request K} {nx : Next K} (h : (nx.apply s t req).Claims k cm)
    (hnew : ∀ r o, (nx = .resume r ∨ ∃ j h, nx = .reconcile r j h) → s.heap r = some o → r.1 = k → o.commitment = cm →
      s.Claims k cm) : s.Claims k cm := by
  cases nx with
  | answer a => exact h.stop rfl rfl rfl rfl rfl
  | reconcile r j h₀ =>
    refine h.go (s := s) rfl rfl rfl rfl rfl id fun c r' o hc ho hw => ?_
    cases hc
    obtain ⟨href, -⟩ := hw.resolve_right fun h => List.not_mem_nil h.1
    obtain rfl := Option.some.inj href
    exact hnew r o (.inr ⟨j, h₀, rfl⟩) ho
  | resume r =>
    refine h.go (s := s) rfl rfl rfl rfl rfl id fun c r' o hc ho hw => ?_
    cases hc
    obtain ⟨href, -⟩ := hw.resolve_right fun h => List.not_mem_nil h.1
    obtain rfl := Option.some.inj href
    exact hnew r o (.inl rfl) ho
  | check e =>
    refine h.go (s := s) rfl rfl rfl rfl rfl id fun c r' o hc ho hw => ?_
    cases hc
    obtain ⟨href, -⟩ := hw.resolve_right fun h => List.not_mem_nil h.1
    cases href

lemma System.Claims.proceed {now : ℕ} {req : Request K} {o : Order}
    (h : ((proceed cfg s now req r o).apply s t req).Claims k cm) (ho : s.heap r = some o)
    (hset : o.state = some .settled → r.1 = k → o.commitment = cm → s.Claims k cm) : s.Claims k cm := by
  refine h.next fun r' o' hnx ho' hk hcm => ?_
  rcases proceed_cases cfg s now req r o with ⟨a, hp⟩ | ⟨hst, hp⟩ | ⟨-, hp⟩ <;> rw [hp] at hnx
  · rcases hnx with h | ⟨_, _, h⟩ <;> cases h
  · obtain rfl : r = r' := by
      rcases hnx with h | ⟨_, _, h⟩
      · cases h
        rfl
      · cases h
    obtain rfl := Option.some.inj (ho.symm.trans ho')
    exact hset hst hk hcm
  · rcases hnx with h | ⟨_, _, h⟩ <;> cases h

lemma System.Claims.begin {now : ℕ} {req : Request K} (h : ((begin cfg s now req).apply s t req).Claims k cm) :
    s.Claims k cm := by
  rcases begin_cases cfg s now req with
    ⟨a, hn⟩ | ⟨r, o, ⟨-, hr, ho, -⟩, ⟨j, h₀, hp, hn⟩ | ⟨-, hn⟩⟩ | ⟨-, -, -, hn⟩ <;> rw [hn] at h
  · exact h.next fun r o hnx => by rcases hnx with h | ⟨_, _, h⟩ <;> cases h
  · refine h.next fun r' o' hnx ho' hk hcm => ?_
    obtain rfl : r = r' := by
      rcases hnx with h | ⟨_, _, h⟩
      · cases h
      · cases h
        rfl
    obtain rfl := Option.some.inj (ho.symm.trans ho')
    exact .stored (hk ▸ (System.stored_of_orders hr).trans ho) (Order.pending_open hp) hcm
  · refine h.proceed ho fun hst hk hcm => ?_
    exact .stored (hk ▸ (System.stored_of_orders hr).trans ho) (.inr (.inl hst)) hcm
  · exact h.next fun r o hnx => by rcases hnx with h | ⟨_, _, h⟩ <;> cases h

/-- **One step makes no claim**, except the act of a call. -/
theorem System.Claims.step (h : s'.Claims k cm) (hb : Backed s) (hst : Step cfg s l s') :
    s.Claims k cm ∨ ∃ t r new limit, l = .acted t r new cm limit ∧ r.1 = k := by
  cases hst with
  | call t req now _ _ => exact .inl h.begin
  | @proceed t req rep r o now hc ho =>
    exact .inl (h.proceed ho fun hst hk hcm => .call hc ho (.inl ⟨rfl, .inr (.inr (.inl hst))⟩) hk hcm)
  | exit _ _ => exact .inl (h.stop rfl rfl rfl rfl rfl)
  | @act t req rep r hc =>
    refine h.go (s := s) rfl rfl rfl rfl rfl .inl fun c r' o hc' ho hw hk hcm => .inr ?_
    cases hc'
    obtain ⟨href, -⟩ := hw.resolve_right fun h => List.not_mem_nil h.1
    obtain rfl := Option.some.inj href
    obtain ⟨o₁, ho₁, hfit⟩ := hb.keeps t _ hc r (.inl rfl)
    obtain rfl := Option.some.inj (ho.symm.trans ho₁)
    obtain rfl := (hfit req rep rfl).1.symm.trans hcm
    exact ⟨_, _, _, _, rfl, hk⟩
  | @create t req rep n hc hf =>
    refine h.write (r := (req.key, n)) hb rfl rfl (fun o ho => by cases hf.1.symm.trans ho) (.inl rfl) (.inl rfl) rfl .inl
      (fun ho => ?_) fun c r' o hc' ho hw hk hcm => .inr ?_
    · rcases ho with h | h | h <;> cases h
    · cases hc'
      obtain ⟨href, -⟩ := hw.resolve_right fun h => List.not_mem_nil h.1
      obtain rfl := Option.some.inj href
      obtain rfl : Order.new req.commitment req.limit = o :=
        Option.some.inj ((System.heap_setOrder (s := s) (r := (req.key, n))).symm.trans ho)
      obtain rfl : req.commitment = cm := hcm
      exact ⟨_, _, _, _, rfl, hk⟩
  | @move t c c' l lock hc hm =>
    refine .inl (h.go (s := s) rfl rfl rfl rfl rfl id fun d r o hd ho hw hk hcm => ?_)
    cases hd
    exact .call hc ho (hm.wants ho hw) hk hcm
  | @put t r o o' c c' l lock w hc ho hp =>
    have hold : c'.pc.Engaged ∨ o'.Open → r.1 = k → o'.commitment = cm → s.Claims k cm := fun hw hk hcm =>
      .call hc ho (hp.wants hw) hk (hp.alike.1.symm.trans hcm)
    refine .inl (h.write hb rfl rfl (fun o₁ ho₁ => by cases ho.symm.trans ho₁; exact hp.alike) (.inr rfl)
      (System.file_put (w := w)) rfl id (fun ho' => hold (.inr ho')) fun d r' o₁ hd ho₁ hw hk hcm => ?_)
    cases hd
    have hself : update s.heap r (some o') r = some o' := Function.update_self ..
    rcases hw with ⟨href, hw⟩ | ⟨hmem, hw⟩
    · obtain rfl := hp.ref.2 r' href
      obtain rfl := Option.some.inj (hself.symm.trans ho₁)
      exact hold hw hk hcm
    · by_cases hr : r' = r
      · subst hr
        obtain rfl := Option.some.inj (hself.symm.trans ho₁)
        exact hold (.inr hw) hk hcm
      · exact .call hc ((Function.update_of_ne hr _ _).symm.trans ho₁) (.inr ⟨hp.task_eq ▸ hmem, hw⟩) hk hcm
  | @present t task r o limit hc _ ho =>
    have hno : ¬ Order.Open { o with state := some .inserted } := by
      rintro (h | h | h) <;> cases h
    refine .inl (h.write hb rfl rfl (fun o₁ ho₁ => by cases ho.symm.trans ho₁; exact ⟨rfl, rfl⟩) (.inl rfl) (.inl rfl) rfl id
      (fun ho' => absurd ho' hno) fun d r' o₁ hd ho₁ hw hk hcm => ?_)
    cases hd
    by_cases hr : r' = r
    · subst hr
      obtain rfl := Option.some.inj ((System.heap_setOrder (s := s)).symm.trans ho₁)
      exact .call hc ho (.inl ⟨rfl, .inl trivial⟩) hk hcm
    · refine .call hc ((Function.update_of_ne hr _ _).symm.trans ho₁) ?_ hk hcm
      exact hw.imp (fun h => absurd (Option.some.inj h.1).symm hr) id
  | @broadcast t task r j o h₀ hc ho hf =>
    have hself : r.1 = k → o.commitment = cm → s.Claims k cm := .call hc ho (.inl ⟨rfl, .inl trivial⟩)
    refine .inl ?_
    cases h with
    | @call t' c r' o₁ hc' ho₁ hw hk hcm =>
      by_cases ht : t' = t
      · subst ht
        have hc₁ : update s.call t' (some ⟨task, .sent r j h₀⟩) t' = some ⟨task, .sent r j h₀⟩ := Function.update_self ..
        obtain rfl := Option.some.inj (hc₁.symm.trans hc')
        exact .call hc ho₁ (hw.imp (fun h => ⟨h.1, .inl trivial⟩) fun h => h) hk hcm
      · exact .call ((Function.update_of_ne ht _ _).symm.trans hc') ho₁ hw hk hcm
    | stored ho₁ hopen hcm => exact .stored ho₁ hopen hcm
    | file ho₁ hopen hcm => exact .file ho₁ hopen hcm
    | @pending h' j' hx hk hcm =>
      by_cases hh : h' = h₀
      · subst hh
        cases Chain.put_tx.symm.trans hx
        exact hself hk hcm
      · exact .pending ((Chain.put_tx_of_ne hh).symm.trans hx) hk hcm
  | leave _ => exact .inl (h.stop rfl rfl rfl rfl rfl)
  | ready _ => exact .inl (h.stop rfl rfl rfl rfl rfl)
  | @chain e c hc =>
    refine .inl ?_
    cases h with
    | call hc' ho hw hk hcm => exact .call hc' ho hw hk hcm
    | stored ho hopen hcm => exact .stored ho hopen hcm
    | file ho hopen hcm => exact .file ho hopen hcm
    | @pending h' j' hx hk hcm =>
      rcases hc.tx h' with heq | ⟨i, rc, -, hp'⟩
      · exact .pending (heq.symm.trans hx) hk hcm
      · cases hp'.symm.trans hx
  | @restart t todo _ _ =>
    refine .inl ?_
    cases h with
    | @call t' c r o hc ho hw hk hcm =>
      obtain ⟨-, rfl⟩ := System.call_restart hc
      obtain ⟨-, hopen⟩ := hw.resolve_left fun h => by cases h.1
      obtain ⟨-, ho'⟩ := Option.ite_none_right_eq_some.mp ho
      exact .file (hk ▸ ho') hopen hcm
    | stored ho hopen hcm => exact .file (System.stored_restart.symm.trans ho) hopen hcm
    | file ho hopen hcm => exact .file ho hopen hcm
    | pending hx hk hcm => exact .pending hx hk hcm

end Claims

/-! ### Leaves and inserts -/

section Leaves

variable {N : Network} {c c' : Chain K} {e : ChainEvent K} {k : K} {cm i : ℕ} {o o' : Order}

lemma Chain.Le.leafOf (hle : c.Le c') (hset : c'.set.leaves cm = c.set.leaves cm) (h : c.LeafOf k cm) :
    c'.LeafOf k cm := by
  obtain ⟨hlive, x, j, root, hkind, hk, hcm, hm⟩ := h
  refine ⟨by simpa [limitOf, Paid.limitOf, hset] using hlive, x, j, root, hkind, hk, hcm, ?_⟩
  rw [hset]
  exact hle.mined hm

lemma Chain.Le.inserted (hle : c.Le c') (hal : o.Alike o') (h : c.Inserted k o i) : c'.Inserted k o' i := by
  obtain ⟨x, root, hm⟩ := h
  refine ⟨x, root, ?_⟩
  rw [hal.job, hal.1, hal.2]
  exact hle.mined hm

/-- Inserts of two authorizations are different leaves. -/
lemma Chain.Facts.inserted_ne (hf : c.Facts) {k' : K} {i' : ℕ} (h : c.Inserted k o i) (h' : c.Inserted k' o' i')
    (hk : k ≠ k') : i ≠ i' := by
  rintro rfl
  obtain ⟨x, root, hm⟩ := h
  obtain ⟨x', root', hm'⟩ := h'
  obtain rfl := hf.distinct _ _ _ _ _ _ _ _ _ _ _ hm hm' rfl rfl
  exact hk (congrArg (fun y => y.job.key) (Option.some.inj (hm.symm.trans hm')))

/-- The leaf of a commitment is that of one authorization. -/
lemma Chain.Facts.leafOf_unique (hf : c.Facts) {k' : K} (h : c.LeafOf k cm) (h' : c.LeafOf k' cm) : k = k' := by
  obtain ⟨-, x, j, root, hkind, rfl, -, hm⟩ := h
  obtain ⟨-, x', j', root', hkind', rfl, -, hm'⟩ := h'
  obtain rfl := hf.distinct _ _ _ _ _ _ _ _ _ _ _ hm hm' hkind hkind'
  exact congrArg (fun y => y.job.key) (Option.some.inj (hm.symm.trans hm'))

variable [DecidableEq K]

/-- A leaf after a step was there before, or the step mined its insert. -/
lemma Chain.Step.leaf (hst : c.Step N e c') (hlive : c'.limitOf cm ≠ 0) :
    c'.set.leaves cm = c.set.leaves cm ∨
      ∃ h j, c.tx h = some ⟨j, none⟩ ∧ j.commitment = cm ∧ c'.LeafOf j.key cm := by
  cases hst with
  | @mined c₁ h j logs hp hx =>
    cases hk : j.kind with
    | settle =>
      obtain ⟨-, rfl, -⟩ := Chain.exec_settle hk hx
      exact .inl rfl
    | insert =>
      obtain ⟨tree, -, -, rfl, rfl⟩ := Chain.exec_insert hk hx
      by_cases hcm : cm = j.commitment
      · subst hcm
        refine .inr ⟨h, j, hp, rfl, hlive, h, j, tree.currentRoot, hk, rfl, rfl, ?_⟩
        show (Chain.put _ h j _).tx h = _
        rw [Chain.put_tx]
        simp [Chain.put]
      · exact .inl (Function.update_of_ne hcm _ _)
  | refused _ _ => exact .inl rfl
  | failed _ => exact .inl rfl
  | @slashed commitment secret limit S evs hs =>
    obtain ⟨-, -, -, -, rfl, -⟩ := Paid.slash_ok hs
    by_cases hcm : cm = commitment
    · subst hcm
      exact absurd (by simp [limitOf, Paid.limitOf, Paid.Leaf.none]) hlive
    · exact .inl (Function.update_of_ne hcm _ _)
  | spent => exact .inl rfl

end Leaves

/-! ### The step -/

/-- Every order that is inserted, or will be as its leaf was found, has an insert of its own. -/
structure Own (s : System K T) : Prop where
  heap : ∀ r o, s.heap r = some o → o.state = some .inserted → ∃ i, s.chain.Inserted r.1 o i
  file : ∀ k o, s.file k = some o → o.state = some .inserted → ∃ i, s.chain.Inserted k o i
  probed : ∀ t task r v o, s.call t = some ⟨task, .probing r (some v)⟩ → v ≠ 0 → s.heap r = some o →
    ∃ i, s.chain.Inserted r.1 o i

/-- What holds as long as acts are apart. -/
structure Sole (s : System K T) : Prop where
  backed : Backed s
  alone : ∀ k k' cm, s.Claims k cm → s.Claims k' cm → k = k'
  leaf : ∀ k cm, s.Claims k cm → s.chain.limitOf cm ≠ 0 → s.chain.LeafOf k cm
  own : Own s

section Step

variable {cfg : Config} {s s' : System K T} {t : T} {l : Label K T} {r : Ref K} {o o' : Order} {k : K} {cm : ℕ}
  {c c' : Call K} {lock : Option T}

lemma Sole.initial {c : Chain K} (hc : c.Start) : Sole (System.initial c : System K T) where
  backed := .initial hc
  alone _ _ _ h := absurd h (System.Claims.initial hc)
  leaf _ _ h := absurd h (System.Claims.initial hc)
  own := by
    refine ⟨fun _ _ h => ?_, fun _ _ h => ?_, fun _ _ _ _ _ h => ?_⟩ <;> cases h

/-- The leaf that a call with the object finds is of an insert of its own. -/
lemma Sole.inserted_of_leaf (hs : Sole s) (hc : s.call t = some c) (href : c.pc.ref = some r) (heng : c.pc.Engaged)
    (hpast : c.pc.Past) (ho : s.heap r = some o) (hlive : s.chain.limitOf o.commitment ≠ 0) :
    ∃ i, s.chain.Inserted r.1 o i := by
  obtain ⟨-, h, j, root, hkind, hk, hcm, hm⟩ := hs.leaf r.1 o.commitment (.call hc ho (.inl ⟨href, .inl heng⟩) rfl rfl) hlive
  obtain ⟨o₁, ho₁, -, hset⟩ := hs.backed.rests t c hc r href
  obtain rfl := Option.some.inj (ho.symm.trans ho₁)
  obtain ⟨x, logs, hx⟩ := hset hpast
  -- its tier is that of the order, since both were paid by one settlement
  obtain ⟨x', logs', hx'⟩ := hs.backed.paid h j ⟨_, hm⟩ hkind
  obtain rfl := hs.backed.facts.settleOnce _ _ _ _ _ _ hx hx' rfl rfl hk.symm
  have hjob : o.job r.1 .settle = { j with kind := .settle } := congrArg Tx.job (Option.some.inj (hx.symm.trans hx'))
  have hlim : j.limit = o.limit := (congrArg Job.limit hjob).symm
  have hj : j = o.job r.1 .insert := by
    cases j
    simp_all [Order.job]
  refine ⟨(s.chain.set.leaves o.commitment).index, h, root, ?_⟩
  rw [← hj, ← hlim]
  exact hm

/-- An order that a put leaves inserted was, or its insert got the receipt. -/
lemma Puts.inserted (hp : Puts s t r o c l c' o' lock) (hs : Sole s) (hc : s.call t = some c) (ho : s.heap r = some o)
    (hi : o'.state = some .inserted) : ∃ i, s.chain.Inserted r.1 o' i := by
  have hold : o.state = some .inserted → ∃ i, s.chain.Inserted r.1 o' i := by
    intro h
    obtain ⟨i, hins⟩ := hs.own.heap r o ho h
    exact ⟨i, Chain.Le.refl.inserted hp.alike hins⟩
  obtain ⟨o₁, ho₁, hsent, -⟩ := hs.backed.rests t c hc r hp.ref.1
  obtain rfl := Option.some.inj (ho.symm.trans ho₁)
  have hfinish : ∀ (j : Kind) (h : ℕ) (rc : Receipt), c.pc.tx = some (j, h) → s.chain.receipt h = some rc →
      (o.finish j rc).state = some .inserted → ∃ i, s.chain.Inserted r.1 (o.finish j rc) i := by
    intro j h rc htx hrc hst
    cases j with
    | settle => cases rc <;> cases hst
    | insert =>
      cases rc with
      | reverted => cases hst
      | ok logs =>
        obtain ⟨rc', hx⟩ := hsent _ _ htx
        obtain rfl : rc' = some (.ok logs) := by simpa [Chain.receipt, hx] using hrc
        obtain ⟨i, root, rfl, -⟩ := hs.backed.facts.inserted _ _ _ hx rfl
        exact ⟨i, h, root, hx⟩
  cases hp with
  | reconciled hrc => exact hfinish _ _ _ rfl hrc hi
  | @recorded _ j _ => cases j <;> cases hi
  | confirmed hrc => exact hfinish _ _ _ rfl hrc hi
  | rooted => exact hold hi
  | @caught _ _ j _ =>
    cases j with
    | settle =>
      by_cases htx : o.settleTx.isSome
      · exact hold (by simpa [Order.caught, htx] using hi)
      · simp [Order.caught, htx] at hi
    | insert => exact hold hi

variable [DecidableEq T]

/-- A step that goes on with one call and marks no order inserted but with an insert of its own. -/
lemma Sole.keep (hs : Sole s) {c' : Option (Call K)} (hext : s.Extends s')
    (hheap : ∀ r o, s'.heap r = some o → o.state = some .inserted →
      s.heap r = some o ∨ ∃ i, s'.chain.Inserted r.1 o i)
    (hfile : s'.file = s.file ∨ s'.file = s'.stored) (hcall : s'.call = update s.call t c')
    (hnew : ∀ task r v o, c' = some ⟨task, .probing r (some v)⟩ → v ≠ 0 → s'.heap r = some o →
      ∃ i, s'.chain.Inserted r.1 o i) : Own s' := by
  have hheap' : ∀ r o, s'.heap r = some o → o.state = some .inserted → ∃ i, s'.chain.Inserted r.1 o i := by
    intro r o ho hi
    rcases hheap r o ho hi with ho' | h
    · obtain ⟨i, hins⟩ := hs.own.heap r o ho' hi
      exact ⟨i, hext.chain.inserted (.refl o) hins⟩
    · exact h
  refine ⟨hheap', fun k o ho hi => ?_, fun t' task r v o hc hv ho => ?_⟩
  · rcases hfile with h | h
    · obtain ⟨i, hins⟩ := hs.own.file k o (h ▸ ho) hi
      exact ⟨i, hext.chain.inserted (.refl o) hins⟩
    · obtain ⟨n, -, hn⟩ := Option.bind_eq_some_iff.mp (h ▸ ho : s'.stored k = some o)
      exact hheap' (k, n) o hn hi
  · rw [hcall] at hc
    by_cases ht : t' = t
    · rw [ht, Function.update_self] at hc
      exact hnew task r v o hc hv ho
    · rw [Function.update_of_ne ht] at hc
      obtain ⟨o₁, ho₁, -⟩ := hs.backed.rests t' _ hc r rfl
      obtain ⟨o₂, ho₂, hal⟩ := hext.heap r o₁ ho₁
      obtain rfl := Option.some.inj (ho.symm.trans ho₂)
      obtain ⟨i, hins⟩ := hs.own.probed t' task r v o₁ hc hv ho₁
      exact ⟨i, hext.chain.inserted hal hins⟩

/-- No order changes. -/
lemma Sole.go (hs : Sole s) {c' : Option (Call K)} (hchain : s'.chain = s.chain) (hheap : s'.heap = s.heap)
    (hfile : s'.file = s.file) (hcall : s'.call = update s.call t c')
    (hnew : ∀ task r v o, c' = some ⟨task, .probing r (some v)⟩ → v ≠ 0 → s.heap r = some o →
      ∃ i, s.chain.Inserted r.1 o i) : Own s' := by
  refine hs.keep (.of_eq hchain hheap) (fun r o ho _ => .inl (hheap ▸ ho)) (.inl hfile) hcall fun task r v o hc hv ho => ?_
  rw [hchain]
  exact hnew task r v o hc hv (hheap ▸ ho)

lemma Sole.stop (hs : Sole s) (hchain : s'.chain = s.chain) (hheap : s'.heap = s.heap) (hfile : s'.file = s.file)
    (hcall : s'.call = update s.call t none) : Own s' :=
  hs.go hchain hheap hfile hcall fun _ _ _ _ h => by cases h

variable [DecidableEq K]

lemma Sole.next (hs : Sole s) (req : Request K) (nx : Next K) : Own (nx.apply s t req) := by
  cases nx with
  | answer a => exact hs.stop rfl rfl rfl rfl
  | reconcile r j h => exact hs.go rfl rfl rfl rfl fun _ _ _ _ h => by cases h
  | resume r => exact hs.go rfl rfl rfl rfl fun _ _ _ _ h => by cases h
  | check e => exact hs.go rfl rfl rfl rfl fun _ _ _ _ h => by cases h

omit [DecidableEq T] in
/-- A call that is at a leaf it found was there before, or reads it now. -/
lemma Moves.probed {v : ℕ} {task : Task K} (hm : Moves cfg s t c l c' lock) (hc' : c' = ⟨task, .probing r (some v)⟩)
    (ho : s.heap r = some o) : c.pc = .probing r none ∧ v = s.chain.limitOf o.commitment := by
  cases hm with
  | readLimit ho₁ =>
    cases hc'
    obtain rfl := Option.some.inj (ho.symm.trans ho₁)
    exact ⟨rfl, rfl⟩
  | @next r todo o₁ _ =>
    have hpc : o₁.entry r = _ := congrArg Call.pc hc'
    unfold Order.entry Order.resume at hpc
    split at hpc
    · cases hpc
    · split_ifs at hpc
      cases hpc
  | @again todo r o₁ _ =>
    have hpc : o₁.resume r = _ := congrArg Call.pc hc'
    unfold Order.resume at hpc
    split_ifs at hpc
    cases hpc
  | _ => cases hc'

lemma Sole.own_step (hs : Sole s) (hst : Step cfg s l s') : Own s' := by
  cases hst with
  | call t req now _ _ => exact hs.next req _
  | @proceed t req _ _ _ _ _ _ => exact hs.next req _
  | exit _ _ => exact hs.stop rfl rfl rfl rfl
  | act _ => exact hs.go rfl rfl rfl rfl fun _ _ _ _ h => by cases h
  | @create t req rep n hc hf =>
    refine hs.keep (.write (r := (req.key, n)) rfl rfl fun o ho => by cases hf.1.symm.trans ho) (fun r o ho hi => ?_)
      (.inl rfl) rfl fun _ _ _ _ h => by cases h
    by_cases hr : r = (req.key, n)
    · subst hr
      obtain rfl : Order.new req.commitment req.limit = o :=
        Option.some.inj ((System.heap_setOrder (s := s) (r := (req.key, n))).symm.trans ho)
      cases hi
    · exact .inl ((Function.update_of_ne hr _ _).symm.trans ho)
  | @move t c c' l lock hc hm =>
    refine hs.go rfl rfl rfl rfl fun task r v o hc' hv ho => ?_
    obtain ⟨hpc, rfl⟩ := hm.probed (Option.some.inj hc') ho
    refine hs.inserted_of_leaf hc ?_ ?_ ?_ ho hv
    · rw [hpc]
      rfl
    · rw [hpc]
      trivial
    · rw [hpc]
      trivial
  | @put t r o o' c c' l lock w hc ho hp =>
    refine hs.keep (.of_alike rfl rfl ho hp.alike) (fun r' o₁ ho₁ hi => ?_) (System.file_put (w := w)) rfl
      fun task r' v o₁ hc' => ?_
    · by_cases hr : r' = r
      · subst hr
        obtain rfl := Option.some.inj ((System.heap_setOrder (s := s)).symm.trans ho₁)
        exact .inr (hp.inserted hs hc ho hi)
      · exact .inl ((Function.update_of_ne hr _ _).symm.trans ho₁)
    · cases hp with
      | @confirmed task j h rc _ => cases task <;> cases j <;> cases rc <;> cases hc'
      | @rooted task => cases task <;> cases hc'
      | _ => cases hc'
  | @present t task r o limit hc hne ho =>
    refine hs.keep (.of_alike rfl rfl ho ⟨rfl, rfl⟩) (fun r' o₁ ho₁ hi => ?_) (.inl rfl) rfl fun _ _ _ _ h => by cases h
    by_cases hr : r' = r
    · subst hr
      obtain rfl := Option.some.inj ((System.heap_setOrder (s := s)).symm.trans ho₁)
      exact .inr (hs.own.probed t task r' limit o hc hne ho)
    · exact .inl ((Function.update_of_ne hr _ _).symm.trans ho₁)
  | @broadcast t task r j o h hc ho hf =>
    exact hs.keep ⟨Chain.le_put hf, fun r o ho => ⟨o, ho, .refl o⟩⟩ (fun r o ho _ => .inl ho) (.inl rfl) rfl
      fun _ _ _ _ h => by cases h
  | leave _ => exact hs.stop rfl rfl rfl rfl
  | ready _ => exact hs.stop rfl rfl rfl rfl
  | @chain e c hc =>
    have hins : ∀ {k o i}, s.chain.Inserted k o i → c.Inserted k o i := fun h => hc.le.inserted (.refl _) h
    exact ⟨fun r o ho hi => (hs.own.heap r o ho hi).imp fun _ => hins,
      fun k o ho hi => (hs.own.file k o ho hi).imp fun _ => hins,
      fun t task r v o hc' hv ho => (hs.own.probed t task r v o hc' hv ho).imp fun _ => hins⟩
  | @restart t todo _ _ =>
    refine ⟨fun r o ho hi => ?_, hs.own.file, fun t' task r v o hc => ?_⟩
    · obtain ⟨-, ho'⟩ := Option.ite_none_right_eq_some.mp ho
      exact hs.own.file r.1 o ho' hi
    · cases (System.call_restart hc).2

/-- What a step does to the chain. -/
lemma Step.chain_cases (hst : Step cfg s l s') :
    (∃ e, l = .chain e ∧ s.chain.Step cfg.toNetwork e s'.chain) ∨ (s'.chain.set = s.chain.set ∧ s.chain.Le s'.chain) := by
  have hnext : ∀ (t : T) (req : Request K) (nx : Next K), (nx.apply s t req).chain = s.chain := by
    intro t req nx
    cases nx <;> rfl
  cases hst with
  | call t req now _ _ => exact .inr ⟨by rw [hnext], by rw [hnext]; exact .refl⟩
  | @proceed t req _ r o now _ _ => exact .inr ⟨by rw [hnext], by rw [hnext]; exact .refl⟩
  | broadcast h _ _ hf => exact .inr ⟨rfl, Chain.le_put hf⟩
  | chain hc => exact .inl ⟨_, rfl, hc⟩
  | _ => exact .inr ⟨rfl, .refl⟩

/-- **One step keeps acts apart**, when its own act is. -/
theorem Sole.step (hs : Sole s) (hl : s.Apart l) (hst : Step cfg s l s') : Sole s' := by
  refine ⟨hs.backed.step hst, fun k k' cm h h' => ?_, fun k cm h hlive => ?_, hs.own_step hst⟩
  · rcases h.step hs.backed hst with h | ⟨t, r, new, limit, rfl, rfl⟩ <;>
      rcases h'.step hs.backed hst with h' | ⟨t', r', new', limit', hl', rfl⟩
    · exact hs.alone k k' cm h h'
    · subst hl'
      exact hl.2 k h
    · exact (hl.2 k' h').symm
    · cases hl'
      rfl
  · rcases hst.chain_cases with ⟨e, rfl, hc⟩ | ⟨hset, hle⟩
    · have hclaim : s.Claims k cm := (h.step hs.backed hst).resolve_right fun ⟨_, _, _, _, h, _⟩ => by cases h
      rcases hc.leaf hlive with hsame | ⟨x, j, hx, rfl, hleaf⟩
      · refine hc.le.leafOf hsame (hs.leaf k cm hclaim ?_)
        simpa [Chain.limitOf, Paid.limitOf, hsame] using hlive
      · rwa [hs.alone k j.key _ hclaim (.pending hx rfl rfl)]
    · have hlive' : s.chain.limitOf cm ≠ 0 := by simpa [Chain.limitOf, Paid.limitOf, hset] using hlive
      refine hle.leafOf (by rw [hset]) ?_
      rcases h.step hs.backed hst with h | ⟨t, r, new, limit, rfl, rfl⟩
      · exact hs.leaf k cm h hlive'
      · exact hl.1 hlive'

end Step

/-! ### Runs -/

section Runs

variable {s : System K T} [DecidableEq K] [DecidableEq T] {cfg : Config}

/-- A claim comes from an act for the authorization. -/
lemma System.Claims.of_run {c : Chain K} (hc : c.Start) {tr : List (Label K T)} {k : K} {cm : ℕ}
    (hrun : Run (Step cfg) (System.initial c) tr s) (h : s.Claims k cm) :
    ∃ t r new limit, .acted t r new cm limit ∈ tr ∧ r.1 = k := by
  have hinv : Backed s ∧ ∀ k cm, s.Claims k cm → ∃ t r new limit, .acted t r new cm limit ∈ tr ∧ r.1 = k := by
    refine hrun.invariant (I := fun tr s => Backed s ∧ ∀ k cm, s.Claims k cm →
      ∃ t r new limit, .acted t r new cm limit ∈ tr ∧ r.1 = k) ⟨.initial hc, fun k cm h => ?_⟩ ?_
    · exact absurd h (System.Claims.initial hc)
    · rintro tr u l v - ⟨hb, hall⟩ hst
      refine ⟨hb.step hst, fun k cm h => ?_⟩
      rcases h.step hb hst with h | ⟨t, r, new, limit, rfl, hk⟩
      · obtain ⟨t, r, new, limit, hmem, hk⟩ := hall k cm h
        exact ⟨t, r, new, limit, List.mem_append_left _ hmem, hk⟩
      · exact ⟨t, r, new, limit, List.mem_append_right _ (List.mem_singleton_self _), hk⟩
  exact hinv.2 k cm h

/-- **One payment, one leaf.** In every run whose acts are all apart, the stored orders that are inserted have
different leaves, each with an `Inserted` of its own for its commitment and tier; and the commitment of a
transaction that may still be mined is not that of a paid order of another authorization, unless that order
was inserted and lost its leaf. -/
theorem one_payment_one_leaf {c : Chain K} (hc : c.Start) {tr : List (Label K T)}
    (hrun : Run (Restrict (Step cfg) System.Apart) (System.initial c) tr s) :
    (∃ leaf : K → ℕ,
      (∀ k o, s.stored k = some o → o.state = some .inserted → s.chain.Inserted k o (leaf k)) ∧
      Set.InjOn leaf {k | ∃ o, s.stored k = some o ∧ o.state = some .inserted}) ∧
    ∀ h j, s.chain.tx h = some ⟨j, none⟩ → ∀ k, s.Occupies k j.commitment → k = j.key := by
  have hs : Sole s := hrun.invariant_state (I := Sole) (.initial hc) fun _ _ _ hi hst => hi.step hst.1 hst.2
  refine ⟨?_, fun h j hx k ⟨o, ho, hcm, hpaid, hocc⟩ => ?_⟩
  · have hleaf : ∀ k, ∃ i, ∀ o, s.stored k = some o → o.state = some .inserted → s.chain.Inserted k o i := by
      intro k
      cases ho : s.stored k with
      | none => exact ⟨0, nofun⟩
      | some o =>
        by_cases hi : o.state = some .inserted
        · obtain ⟨n, -, hn⟩ := Option.bind_eq_some_iff.mp ho
          obtain ⟨i, hins⟩ := hs.own.heap (k, n) o hn hi
          refine ⟨i, fun o' ho' _ => ?_⟩
          cases ho'
          exact hins
        · refine ⟨0, fun o' ho' hi' => ?_⟩
          cases ho'
          exact absurd hi' hi
    choose leaf hleaf using hleaf
    refine ⟨leaf, hleaf, ?_⟩
    rintro k ⟨o, ho, hi⟩ k' ⟨o', ho', hi'⟩ heq
    by_contra hk
    exact hs.backed.facts.inserted_ne (hleaf k o ho hi) (hleaf k' o' ho' hi') hk heq
  · have hclaim : s.Claims j.key j.commitment := .pending hx rfl rfl
    rcases hpaid with hst | hst | hst
    · exact hs.alone _ _ _ (.stored ho (.inr (.inl hst)) hcm) hclaim
    · exact hs.alone _ _ _ (.stored ho (.inr (.inr hst)) hcm) hclaim
    · exact hs.backed.facts.leafOf_unique (hocc hst) (hs.leaf _ _ hclaim (hocc hst).1)

end Runs

/-! ### Sales of one tier -/

/-- One sale from the request to the leaf. -/
theorem one_payment_one_leaf_sold :
    ∃ (tr : List (Label ℕ ℕ)) (s : System ℕ ℕ),
      Run (Restrict (Step oneTier) System.Apart) (System.initial genesis) tr s ∧
      ∃ (leaf : ℕ → ℕ) (o : Order), s.stored 7 = some o ∧ o.state = some .inserted ∧ s.chain.Inserted 7 o (leaf 7) := by
  have hgenesis : Chain.Start genesis := ⟨fun _ => rfl, fun l hl => by
    obtain rfl : l = 8 := by simpa [genesis] using hl
    decide⟩
  have h₀ : Run (Restrict (Step oneTier) System.Apart) (System.initial genesis) []
    (System.initial (T := ℕ) genesis) := .nil
  have h₁ := h₀.snoc (.of_step (.call 0 (tierRequest 7 42) 100 rfl rfl) trivial)
  have h₂ := h₁.snoc (.of_step (.move (t := 0) rfl .readUsed) trivial)
  have h₃ := h₂.snoc (.of_step (.move (t := 0) rfl .readActive) trivial)
  have h₄ := h₃.snoc (.of_step (.create (t := 0) 0 rfl ⟨rfl, by decide⟩) ⟨fun h => absurd rfl h, fun k hk => by
    obtain ⟨t, r, new, limit, hmem, -⟩ := hk.of_run hgenesis h₃.forget
    obtain ⟨⟩ | ⟨_, ⟨⟩ | ⟨_, ⟨⟩ | ⟨_, ⟨⟩⟩⟩⟩ := hmem⟩)
  have h₅ := h₄.snoc (.of_step (.move (t := 0) rfl (.acquire rfl)) trivial)
  have h₆ := h₅.snoc (.of_step (.move (t := 0) rfl (.simulated rfl rfl)) trivial)
  have h₇ := h₆.snoc (.of_step (.broadcast (t := 0) 0 rfl rfl rfl) trivial)
  have h₈ := h₇.snoc (.of_step (.put (t := 0) true rfl rfl .recorded) trivial)
  have h₉ := h₈.snoc (.of_step (.chain (.mined (h := 0) rfl rfl)) trivial)
  have h₁₀ := h₉.snoc (.of_step (.put (t := 0) true rfl rfl (.confirmed rfl)) trivial)
  have h₁₁ := h₁₀.snoc (.of_step (.move (t := 0) rfl (.readLimit rfl)) trivial)
  have h₁₂ := h₁₁.snoc (.of_step (.move (t := 0) rfl .absent) trivial)
  have h₁₃ := h₁₂.snoc (.of_step (.move (t := 0) rfl (.acquire rfl)) trivial)
  have h₁₄ := h₁₃.snoc (.of_step (.move (t := 0) rfl (.simulated rfl rfl)) trivial)
  have h₁₅ := h₁₄.snoc (.of_step (.broadcast (t := 0) 1 rfl rfl rfl) trivial)
  have h₁₆ := h₁₅.snoc (.of_step (.put (t := 0) true rfl rfl .recorded) trivial)
  have h₁₇ := h₁₆.snoc (.of_step (.chain (.mined (h := 1) rfl rfl)) trivial)
  have h₁₈ := h₁₇.snoc (.of_step (.put (t := 0) true rfl rfl (.confirmed rfl)) trivial)
  obtain ⟨leaf, hleaf, -⟩ := (one_payment_one_leaf hgenesis h₁₈).1
  exact ⟨_, _, h₁₈, leaf, _, rfl, rfl, hleaf 7 _ rfl rfl⟩

/-- Two payers name one commitment and both pass the checks.  Both are charged; the second finds the leaf of
the first and is marked inserted. -/
theorem two_payments_one_leaf :
    ∃ (tr : List (Label ℕ ℕ)) (s : System ℕ ℕ),
      Run (Restrict (Step oneTier) fun _ l => l.Runs) (System.initial genesis) tr s ∧
      (∃ o, s.stored 7 = some o ∧ o.state = some .inserted ∧ o.commitment = 42) ∧
      (∃ o, s.stored 8 = some o ∧ o.state = some .inserted ∧ o.commitment = 42 ∧ ∀ i, ¬ s.chain.Inserted 8 o i) ∧
      s.chain.used 7 = true ∧ s.chain.used 8 = true ∧ s.chain.set.nextIndex = 1 := by
  have h₀ : Run (Restrict (Step oneTier) fun _ l => l.Runs) (System.initial genesis) []
    (System.initial (T := ℕ) genesis) := .nil
  have h₁ := h₀.snoc (.of_step (.call 0 (tierRequest 7 42) 100 rfl rfl) trivial)
  have h₂ := h₁.snoc (.of_step (.call 1 (tierRequest 8 42) 100 rfl rfl) trivial)
  have h₃ := h₂.snoc (.of_step (.move (t := 0) rfl .readUsed) trivial)
  have h₄ := h₃.snoc (.of_step (.move (t := 1) rfl .readUsed) trivial)
  have h₅ := h₄.snoc (.of_step (.move (t := 0) rfl .readActive) trivial)
  have h₆ := h₅.snoc (.of_step (.move (t := 1) rfl .readActive) trivial)
  have h₇ := h₆.snoc (.of_step (.create (t := 0) 0 rfl ⟨rfl, by decide⟩) trivial)
  have h₈ := h₇.snoc (.of_step (.create (t := 1) 0 rfl ⟨rfl, by decide⟩) trivial)
  -- the first pays and is inserted
  have h₉ := h₈.snoc (.of_step (.move (t := 0) rfl (.acquire rfl)) trivial)
  have h₁₀ := h₉.snoc (.of_step (.move (t := 0) rfl (.simulated rfl rfl)) trivial)
  have h₁₁ := h₁₀.snoc (.of_step (.broadcast (t := 0) 0 rfl rfl rfl) trivial)
  have h₁₂ := h₁₁.snoc (.of_step (.put (t := 0) true rfl rfl .recorded) trivial)
  have h₁₃ := h₁₂.snoc (.of_step (.chain (.mined (h := 0) rfl rfl)) trivial)
  have h₁₄ := h₁₃.snoc (.of_step (.put (t := 0) true rfl rfl (.confirmed rfl)) trivial)
  have h₁₅ := h₁₄.snoc (.of_step (.move (t := 0) rfl (.readLimit rfl)) trivial)
  have h₁₆ := h₁₅.snoc (.of_step (.move (t := 0) rfl .absent) trivial)
  have h₁₇ := h₁₆.snoc (.of_step (.move (t := 0) rfl (.acquire rfl)) trivial)
  have h₁₈ := h₁₇.snoc (.of_step (.move (t := 0) rfl (.simulated rfl rfl)) trivial)
  have h₁₉ := h₁₈.snoc (.of_step (.broadcast (t := 0) 1 rfl rfl rfl) trivial)
  have h₂₀ := h₁₉.snoc (.of_step (.put (t := 0) true rfl rfl .recorded) trivial)
  have h₂₁ := h₂₀.snoc (.of_step (.chain (.mined (h := 1) rfl rfl)) trivial)
  have h₂₂ := h₂₁.snoc (.of_step (.put (t := 0) true rfl rfl (.confirmed rfl)) trivial)
  -- the second pays, and finds the leaf
  have h₂₃ := h₂₂.snoc (.of_step (.move (t := 1) rfl (.acquire rfl)) trivial)
  have h₂₄ := h₂₃.snoc (.of_step (.move (t := 1) rfl (.simulated rfl rfl)) trivial)
  have h₂₅ := h₂₄.snoc (.of_step (.broadcast (t := 1) 2 rfl rfl rfl) trivial)
  have h₂₆ := h₂₅.snoc (.of_step (.put (t := 1) true rfl rfl .recorded) trivial)
  have h₂₇ := h₂₆.snoc (.of_step (.chain (.mined (h := 2) rfl rfl)) trivial)
  have h₂₈ := h₂₇.snoc (.of_step (.put (t := 1) true rfl rfl (.confirmed rfl)) trivial)
  have h₂₉ := h₂₈.snoc (.of_step (.move (t := 1) rfl (.readLimit rfl)) trivial)
  have h₃₀ := h₂₉.snoc (.of_step (.present (t := 1) rfl (by decide) rfl) trivial)
  have h₃₁ := h₃₀.snoc (.of_step (.put (t := 1) true rfl rfl .rooted) trivial)
  refine ⟨_, _, h₃₁, ⟨_, rfl, rfl, rfl⟩, ⟨_, rfl, rfl, rfl, ?_⟩, rfl, rfl, rfl⟩
  rintro i ⟨h, root, hm⟩
  rcases h with _ | _ | _ | h <;> cases hm

end ShadeTree.Registrar
