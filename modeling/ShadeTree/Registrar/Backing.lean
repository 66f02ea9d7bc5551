import ShadeTree.Registrar.Sound

/-!
# What orders rest on

These facts hold in every run, also when calls overlap.  A hash that an order carries, or that a call waits
for, was broadcast for that authorization, commitment and tier.  A paid order has its own mined settlement,
and the registrar sends an insert only after the settlement for the same was mined.
-/

namespace ShadeTree.Registrar

open Function (update)
open ShadeTree.Contracts

variable {K T : Type}

/-- The settlement of the order was mined. -/
def Chain.Settled (c : Chain K) (k : K) (o : Order) : Prop := ∃ h logs, c.Mined h (o.job k .settle) logs

/-- The chain bears out what the order says. -/
structure Chain.Backs (c : Chain K) (k : K) (o : Order) : Prop where
  sent : ∀ j h, o.hash j = some h → c.Sent h (o.job k j)
  settled : o.Paid → c.Settled k o

/-- The transaction that a call is at. -/
def Pc.tx : Pc K → Option (Kind × ℕ)
  | .reconciling _ j h => some (j, h)
  | .sent _ j h => some (j, h)
  | .waiting _ j h => some (j, h)
  | _ => none

/-- The call is past the settlement of its order. -/
def Pc.Past : Pc K → Prop
  | .reconciling _ j _ => j = .insert
  | .locking _ j => j = .insert
  | .simulating _ j => j = .insert
  | .sending _ j => j = .insert
  | .sent _ j _ => j = .insert
  | .waiting _ j _ => j = .insert
  | .throwing _ j _ => j = .insert
  | .probing _ _ => True
  | .rooting _ => True
  | _ => False

/-- The order object of a call, also the one it found before the checks. -/
def Pc.target : Pc K → Option (Ref K)
  | .checking e _ _ => e
  | pc => pc.ref

def Task.todo : Task K → List (Ref K)
  | .post _ _ => []
  | .recover todo => todo

/-- The call has the object at hand, or will get to it. -/
def Call.Holds (c : Call K) (r : Ref K) : Prop := c.pc.target = some r ∨ r ∈ c.task.todo

/-- The two orders are for the same purchase. -/
def Order.Alike (o o' : Order) : Prop := o'.commitment = o.commitment ∧ o'.limit = o.limit

/-- The order is for what was requested. -/
def Order.Fits (o : Order) (req : Request K) : Prop := o.commitment = req.commitment ∧ o.limit = req.limit

namespace System

/-- The chain bears out where a call is. -/
def Rests (s : System K T) (pc : Pc K) : Prop :=
  ∀ r, pc.ref = some r → ∃ o, s.heap r = some o ∧
    (∀ j h, pc.tx = some (j, h) → s.chain.Sent h (o.job r.1 j)) ∧ (pc.Past → s.chain.Settled r.1 o)

/-- What a call holds exists and is for what was requested. -/
def Keeps (s : System K T) (c : Call K) : Prop :=
  ∀ r, c.Holds r → ∃ o, s.heap r = some o ∧ ∀ req rep, c.task = .post req rep → o.Fits req

/-- The chain went on and no object was lost or changed its purchase. -/
structure Extends (s s' : System K T) : Prop where
  chain : s.chain.Le s'.chain
  heap : ∀ r o, s.heap r = some o → ∃ o', s'.heap r = some o' ∧ o.Alike o'

end System

/-- What holds in every run. -/
structure Backed (s : System K T) : Prop where
  facts : s.chain.Facts
  paid : ∀ h j, s.chain.Sent h j → j.kind = .insert → ∃ h' logs, s.chain.Mined h' { j with kind := .settle } logs
  heap : ∀ r o, s.heap r = some o → s.chain.Backs r.1 o
  file : ∀ k o, s.file k = some o → s.chain.Backs k o
  kept : ∀ k n, s.orders k = some n → ∃ o, s.heap (k, n) = some o
  rests : ∀ t c, s.call t = some c → s.Rests c.pc
  keeps : ∀ t c, s.call t = some c → s.Keeps c

/-! ### What goes on holding -/

section Extends

variable {s s' : System K T} {c c' : Chain K} {o o' : Order} {k : K} {j : Kind}

lemma Order.Alike.refl (o : Order) : o.Alike o := ⟨rfl, rfl⟩

lemma Order.Alike.job (h : o.Alike o') : o'.job k j = o.job k j := by
  simp only [Order.job, h.1, h.2]

lemma Order.Alike.settled (h : o.Alike o') (hs : c.Settled k o) : c.Settled k o' := by
  obtain ⟨x, logs, hm⟩ := hs
  exact ⟨x, logs, by rwa [h.job]⟩

lemma Chain.Le.settled (hle : c.Le c') (h : c.Settled k o) : c'.Settled k o := by
  obtain ⟨x, logs, hm⟩ := h
  exact ⟨x, logs, hle.mined hm⟩

lemma Chain.Le.backs (hle : c.Le c') (h : c.Backs k o) : c'.Backs k o :=
  ⟨fun j x hx => hle.sent (h.sent j x hx), fun hp => hle.settled (h.settled hp)⟩

lemma System.Extends.of_eq (hc : s'.chain = s.chain) (hh : s'.heap = s.heap) : s.Extends s' :=
  ⟨hc ▸ Chain.Le.refl, fun _ o ho => ⟨o, hh ▸ ho, .refl o⟩⟩

lemma System.Extends.rests {pc : Pc K} (he : s.Extends s') (h : s.Rests pc) : s'.Rests pc := by
  intro r hr
  obtain ⟨o, ho, htx, hpast⟩ := h r hr
  obtain ⟨o', ho', hal⟩ := he.heap r o ho
  refine ⟨o', ho', fun j x hx => ?_, fun hp => hal.settled (he.chain.settled (hpast hp))⟩
  rw [hal.job]
  exact he.chain.sent (htx j x hx)

lemma System.Extends.keeps {d : Call K} (he : s.Extends s') (h : s.Keeps d) : s'.Keeps d := by
  intro r hr
  obtain ⟨o, ho, hreq⟩ := h r hr
  obtain ⟨o', ho', hc, hl⟩ := he.heap r o ho
  exact ⟨o', ho', fun req rep ht => ⟨hc.trans (hreq req rep ht).1, hl.trans (hreq req rep ht).2⟩⟩

/-- A call that holds no more than another one before it. -/
lemma System.Keeps.of_subset {d d' : Call K} (h : s.Keeps d) (hsub : ∀ r, d'.Holds r → d.Holds r)
    (htask : ∀ req rep, d'.task = .post req rep → ∃ rep', d.task = .post req rep') : s.Keeps d' := by
  intro r hr
  obtain ⟨o, ho, hreq⟩ := h r (hsub r hr)
  refine ⟨o, ho, fun req rep ht => ?_⟩
  obtain ⟨rep', ht'⟩ := htask req rep ht
  exact hreq req rep' ht'

lemma Pc.ref_target {pc : Pc K} {r : Ref K} (h : pc.ref = some r) : pc.target = some r := by
  cases pc <;> first | exact h | cases h

end Extends

/-! ### Where a call goes -/

section Moves

variable {cfg : Config} {s : System K T} {t : T} {l : Label K T} {lock : Option T} {r : Ref K} {o o' : Order}

lemma Order.pending_hash {j : Kind} {h : ℕ} (hp : o.pending = some (j, h)) :
    o.hash j = some h ∧ (j = .insert → o.Paid) := by
  cases j with
  | settle => exact ⟨(Order.pending_settle.mp hp).2, nofun⟩
  | insert =>
    obtain ⟨hst, htx⟩ := Order.pending_insert.mp hp
    exact ⟨htx, fun _ => .inr (.inl hst)⟩

lemma Order.resume_target : (o.resume r).target = (o.resume r).ref := by
  unfold Order.resume
  split_ifs <;> rfl

lemma Order.entry_target : (o.entry r).target = (o.entry r).ref := by
  unfold Order.entry
  cases o.pending with
  | none => exact Order.resume_target
  | some jh => rfl

lemma Backed.rests_reconciling (hb : Backed s) (ho : s.heap r = some o) {j : Kind} {h : ℕ}
    (hp : o.pending = some (j, h)) : s.Rests (.reconciling r j h) := by
  intro r' hr
  obtain rfl := Option.some.inj hr
  obtain ⟨hh, hpaid⟩ := Order.pending_hash hp
  refine ⟨o, ho, fun i x hx => ?_, fun hj => (hb.heap r o ho).settled (hpaid hj)⟩
  cases hx
  exact (hb.heap r o ho).sent j h hh

lemma Backed.rests_probing (hb : Backed s) (ho : s.heap r = some o) (hst : o.state = some .settled) :
    s.Rests (.probing r none) := by
  intro r' hr
  obtain rfl := Option.some.inj hr
  exact ⟨o, ho, nofun, fun _ => (hb.heap r o ho).settled (.inl hst)⟩

lemma Backed.rests_resume (hb : Backed s) (ho : s.heap r = some o) : s.Rests (o.resume r) := by
  unfold Order.resume
  split_ifs with hst
  · exact hb.rests_probing ho hst
  · exact nofun

lemma Backed.rests_entry (hb : Backed s) (ho : s.heap r = some o) : s.Rests (o.entry r) := by
  unfold Order.entry
  cases hp : o.pending with
  | none => exact hb.rests_resume ho
  | some jh => exact hb.rests_reconciling ho hp

/-- A call that stays with its order and learns of no transaction. -/
lemma System.Rests.of_ref {pc pc' : Pc K} (h : s.Rests pc) (href : pc'.ref = pc.ref) (htx : pc'.tx = none ∨ pc'.tx = pc.tx)
    (hpast : pc'.Past → pc.Past) : s.Rests pc' := by
  intro r hr
  obtain ⟨o, ho, hsent, hset⟩ := h r (href ▸ hr)
  refine ⟨o, ho, fun j x hx => ?_, fun hp => hset (hpast hp)⟩
  rcases htx with h' | h'
  · cases h'.symm.trans hx
  · exact hsent j x (h' ▸ hx)

lemma Chain.Sent.settled {h : ℕ} {c : Chain K} {k : K} {logs : List Paid.Event} (hs : c.Sent h (o.job k .settle))
    (hrc : c.receipt h = some (.ok logs)) : c.Settled k o := by
  obtain ⟨rc, hx⟩ := hs
  obtain rfl : rc = some (.ok logs) := by simpa [Chain.receipt, hx] using hrc
  exact ⟨h, logs, hx⟩

/-- A receipt leaves an order that the chain bears out. -/
lemma Chain.Backs.finish {c : Chain K} {k : K} {j : Kind} {h : ℕ} {rc : Receipt} (hb : c.Backs k o)
    (hs : c.Sent h (o.job k j)) (hrc : c.receipt h = some rc) (hset : j = .insert → c.Settled k o) :
    c.Backs k (o.finish j rc) := by
  cases j with
  | settle =>
    cases rc with
    | ok logs => exact ⟨hb.sent, fun _ => hs.settled hrc⟩
    | reverted => exact ⟨hb.sent, fun hp => absurd rfl (Order.Paid.not_failed hp)⟩
  | insert => cases rc <;> exact ⟨hb.sent, fun _ => hset rfl⟩

lemma Order.alike_finish {j : Kind} {rc : Receipt} : o.Alike (o.finish j rc) := by
  cases j <;> cases rc <;> exact ⟨rfl, rfl⟩

lemma Puts.alike {c c' : Call K} (hp : Puts s t r o c l c' o' lock) : o.Alike o' := by
  cases hp with
  | reconciled _ => exact Order.alike_finish
  | @recorded _ j _ => cases j <;> exact ⟨rfl, rfl⟩
  | confirmed _ => exact Order.alike_finish
  | rooted => exact ⟨rfl, rfl⟩
  | @caught _ _ j _ => cases j <;> exact ⟨rfl, rfl⟩

/-- What a call puts, the chain bears out. -/
lemma Puts.backs {c c' : Call K} (hp : Puts s t r o c l c' o' lock) (ho : s.heap r = some o)
    (hb : s.chain.Backs r.1 o) (hr : s.Rests c.pc) : s.chain.Backs r.1 o' := by
  obtain ⟨o₁, ho₁, hsent, hset⟩ := hr r hp.ref.1
  obtain rfl := Option.some.inj (ho.symm.trans ho₁)
  cases hp with
  | reconciled hrc => exact hb.finish (hsent _ _ rfl) hrc fun h => hset h
  | @recorded _ j h =>
    cases j with
    | settle =>
      refine ⟨fun i x hx => ?_, fun hp => ?_⟩
      · cases i with
        | settle =>
          cases hx
          exact hsent _ _ rfl
        | insert => exact hb.sent .insert x hx
      · rcases hp with h | h | h <;> cases h
    | insert =>
      refine ⟨fun i x hx => ?_, fun _ => hset rfl⟩
      cases i with
      | settle => exact hb.sent .settle x hx
      | insert =>
        cases hx
        exact hsent _ _ rfl
  | confirmed hrc => exact hb.finish (hsent _ _ rfl) hrc fun h => hset h
  | rooted => exact ⟨hb.sent, hb.settled⟩
  | @caught _ _ j _ =>
    cases j with
    | settle =>
      refine ⟨hb.sent, fun hp => hb.settled ?_⟩
      by_cases htx : o.settleTx.isSome
      · simpa [Order.Paid, Order.caught, htx] using hp
      · simp [Order.Paid, Order.caught, htx] at hp
    | insert => exact hb

/-- Where a call is after its put. -/
lemma Puts.rests {c c' : Call K} {s' : System K T} (hp : Puts s t r o c l c' o' lock) (ho : s.heap r = some o)
    (hr : s.Rests c.pc) (ho' : s'.heap r = some o') (hchain : s'.chain = s.chain) : s'.Rests c'.pc := by
  obtain ⟨o₁, ho₁, hsent, hset⟩ := hr r hp.ref.1
  obtain rfl := Option.some.inj (ho.symm.trans ho₁)
  have hal := hp.alike
  intro r' hr'
  obtain rfl := hp.ref.2 r' hr'
  refine ⟨o', ho', fun j x hx => ?_, fun hpast => hal.settled ?_⟩
  · rw [hal.job, hchain]
    cases hp with
    | recorded =>
      cases hx
      exact hsent _ _ rfl
    | @confirmed task i _ rc _ => cases task <;> cases i <;> cases rc <;> cases hx
    | @rooted task => cases task <;> cases hx
    | _ => cases hx
  · rw [hchain]
    cases hp with
    | reconciled _ => exact hpast.elim
    | recorded => exact hset hpast
    | @confirmed task i _ rc hrc =>
      cases i with
      | settle =>
        cases rc with
        | ok logs => exact (hsent _ _ rfl).settled hrc
        | reverted => cases hpast
      | insert => exact hset rfl
    | rooted => exact hset trivial
    | caught => exact hpast.elim

lemma Puts.keeps {c c' : Call K} {r' : Ref K} (hp : Puts s t r o c l c' o' lock) (hr : c'.Holds r') : c.Holds r' := by
  have href : c'.pc.target = some r' → r' = r := by
    intro h
    refine hp.ref.2 r' (Eq.trans ?_ h)
    cases hp with
    | @confirmed task i _ rc _ => cases task <;> cases i <;> cases rc <;> rfl
    | @rooted task => cases task <;> rfl
    | _ => rfl
  rcases hr with h | h
  · rw [href h]
    exact .inl (Pc.ref_target hp.ref.1)
  · exact .inr (hp.task_eq ▸ h)

variable [DecidableEq K]

lemma Moves.rests {c c' : Call K} (hm : Moves cfg s t c l c' lock) (hb : Backed s) (hr : s.Rests c.pc) :
    s.Rests c'.pc := by
  cases hm with
  | receiptFails => exact nofun
  | next ho => exact hb.rests_entry ho
  | again ho => exact hb.rests_resume ho
  | readUsed => exact nofun
  | readActive => exact nofun
  | caught => exact nofun
  | receiptLate => exact hr.of_ref rfl (.inl rfl) nofun
  | absent => exact hr.of_ref rfl (.inl rfl) fun _ => trivial
  | probeFails => exact hr.of_ref rfl (.inl rfl) fun _ => trivial
  | rootFails => exact hr.of_ref rfl (.inl rfl) fun _ => trivial
  | _ => exact hr.of_ref rfl (.inl rfl) fun h => h

lemma Moves.keeps {c c' : Call K} (hm : Moves cfg s t c l c' lock) (hk : s.Keeps c) : s.Keeps c' := by
  cases hm with
  | @next r todo o ho =>
    refine hk.of_subset (fun r' hr' => .inr ?_) fun _ _ h => by cases h
    rcases hr' with h | h
    · rw [Order.entry_ref (Order.entry_target.symm.trans h)]
      exact List.mem_cons_self
    · exact List.mem_cons_of_mem _ h
  | @again todo r o ho =>
    refine hk.of_subset (fun r' hr' => ?_) fun _ _ h => by cases h
    rcases hr' with h | h
    · rw [Order.resume_ref (Order.resume_target.symm.trans h)]
      exact .inl rfl
    · exact .inr h
  | receiptFails => exact hk.of_subset (fun r' hr' => hr'.elim nofun .inr) fun _ rep h => ⟨rep, h⟩
  | caught => exact hk.of_subset (fun r' hr' => hr'.elim nofun .inr) fun _ rep h => ⟨rep, h⟩
  | _ => exact hk.of_subset (fun _ h => h) fun _ rep h => ⟨rep, h⟩

end Moves

/-! ### The step -/

section Step

variable {cfg : Config} {s s' : System K T} {t : T} {l : Label K T} {r : Ref K} {o' : Order} {c' : Option (Call K)}

lemma Backed.initial {c : Chain K} (hc : c.Start) : Backed (System.initial c : System K T) where
  facts := hc.facts
  paid h _ hs := by
    obtain ⟨rc, hx⟩ := hs
    cases (hc.noTx h).symm.trans hx
  heap _ _ h := by cases h
  file _ _ h := by cases h
  kept _ _ h := by cases h
  rests _ _ h := by cases h
  keeps _ _ h := by cases h

variable [DecidableEq T]

/-- The calls after one of them went on. -/
lemma calls_step {P : System K T → Call K → Prop} (hcall : s'.call = update s.call t c')
    (hP : ∀ c, P s c → P s' c) (hold : ∀ t c, s.call t = some c → P s c) (hnew : ∀ c, c' = some c → P s' c) :
    ∀ t c, s'.call t = some c → P s' c := by
  intro t' d hd
  rw [hcall] at hd
  by_cases ht : t' = t
  · rw [ht, Function.update_self] at hd
    exact hnew d hd
  · rw [Function.update_of_ne ht] at hd
    exact hP d (hold t' d hd)

/-- A call goes on and no order changes. -/
lemma Backed.go (hb : Backed s) (hchain : s'.chain = s.chain) (hheap : s'.heap = s.heap)
    (horders : s'.orders = s.orders) (hfile : s'.file = s.file) (hcall : s'.call = update s.call t c')
    (hnew : ∀ c, c' = some c → s.Rests c.pc ∧ s.Keeps c) : Backed s' := by
  have hext : s.Extends s' := .of_eq hchain hheap
  refine ⟨hchain ▸ hb.facts, hchain ▸ hb.paid, fun r o ho => ?_, fun k o ho => ?_, fun k n hn => ?_,
    calls_step (P := fun s c => s.Rests c.pc) hcall (fun _ => hext.rests) hb.rests fun c h => hext.rests (hnew c h).1,
    calls_step (P := fun s c => s.Keeps c) hcall (fun _ => hext.keeps) hb.keeps fun c h => hext.keeps (hnew c h).2⟩
  · rw [hchain]
    exact hb.heap r o (hheap ▸ ho)
  · rw [hchain]
    exact hb.file k o (hfile ▸ ho)
  · rw [hheap]
    exact hb.kept k n (horders ▸ hn)

/-- A call ends. -/
lemma Backed.stop (hb : Backed s) (hchain : s'.chain = s.chain) (hheap : s'.heap = s.heap)
    (horders : s'.orders = s.orders) (hfile : s'.file = s.file) (hcall : s'.call = update s.call t none) :
    Backed s' :=
  hb.go hchain hheap horders hfile hcall fun _ h => by cases h

variable [DecidableEq K]

omit [DecidableEq T] in
lemma System.Extends.write (hchain : s'.chain = s.chain) (hheap : s'.heap = update s.heap r (some o'))
    (hal : ∀ o, s.heap r = some o → o.Alike o') : s.Extends s' := by
  refine ⟨hchain ▸ Chain.Le.refl, fun r' o ho => ?_⟩
  by_cases hr : r' = r
  · subst hr
    exact ⟨o', by rw [hheap, Function.update_self], hal o ho⟩
  · exact ⟨o, by rw [hheap, Function.update_of_ne hr]; exact ho, .refl o⟩

omit [DecidableEq T] in
lemma System.Extends.of_alike {o : Order} (hchain : s'.chain = s.chain) (hheap : s'.heap = update s.heap r (some o'))
    (ho : s.heap r = some o) (hal : o.Alike o') : s.Extends s' :=
  .write hchain hheap fun o₁ ho₁ => by
    cases ho.symm.trans ho₁
    exact hal

/-- A call goes on and an order object is made or changed. -/
lemma Backed.write (hb : Backed s) (hext : s.Extends s') (hchain : s'.chain = s.chain)
    (hheap : s'.heap = update s.heap r (some o')) (hbacks : s.chain.Backs r.1 o')
    (horders : ∀ k n, s'.orders k = some n → s.orders k = some n ∨ (k, n) = r)
    (hfile : s'.file = s.file ∨ s'.file = s'.stored) (hcall : s'.call = update s.call t c')
    (hnew : ∀ c, c' = some c → s'.Rests c.pc ∧ s'.Keeps c) : Backed s' := by
  have hbacks' : ∀ r' o, s'.heap r' = some o → s'.chain.Backs r'.1 o := by
    intro r' o ho
    rw [hchain]
    rw [hheap] at ho
    by_cases hr : r' = r
    · subst hr
      rw [Function.update_self] at ho
      obtain rfl := Option.some.inj ho
      exact hbacks
    · rw [Function.update_of_ne hr] at ho
      exact hb.heap r' o ho
  refine ⟨hchain ▸ hb.facts, hchain ▸ hb.paid, hbacks', fun k o ho => ?_, fun k n hn => ?_,
    calls_step (P := fun s c => s.Rests c.pc) hcall (fun _ => hext.rests) hb.rests fun c h => (hnew c h).1,
    calls_step (P := fun s c => s.Keeps c) hcall (fun _ => hext.keeps) hb.keeps fun c h => (hnew c h).2⟩
  · rcases hfile with h | h
    · rw [hchain]
      exact hb.file k o (h ▸ ho)
    · rw [h] at ho
      obtain ⟨n, -, hn⟩ := Option.bind_eq_some_iff.mp ho
      exact hbacks' (k, n) o hn
  · rcases horders k n hn with h | h
    · obtain ⟨o, ho⟩ := hb.kept k n h
      obtain ⟨o₁, ho₁, -⟩ := hext.heap _ _ ho
      exact ⟨o₁, ho₁⟩
    · exact ⟨o', by rw [h, hheap, Function.update_self]⟩

/-- The synchronous part of a call: what it goes on with exists and is for what was requested. -/
lemma Backed.next (hb : Backed s) (req : Request K) (nx : Next K)
    (hrec : ∀ r j h, nx = .reconcile r j h → ∃ o, s.heap r = some o ∧ o.Fits req ∧ o.pending = some (j, h))
    (hres : ∀ r, nx = .resume r → ∃ o, s.heap r = some o ∧ o.Fits req ∧ o.state = some .settled)
    (hchk : ∀ r, nx = .check (some r) → ∃ o, s.heap r = some o ∧ o.Fits req) : Backed (nx.apply s t req) := by
  have hkeeps : ∀ (pc : Pc K) (rep : Bool), (∀ r, pc.target = some r → ∃ o, s.heap r = some o ∧ o.Fits req) →
      s.Keeps ⟨.post req rep, pc⟩ := by
    intro pc rep hpc r hr
    obtain ⟨o, ho, hfit⟩ := hpc r (hr.resolve_right List.not_mem_nil)
    exact ⟨o, ho, fun req' rep' h => by cases h; exact hfit⟩
  cases nx with
  | answer a => exact hb.stop rfl rfl rfl rfl rfl
  | reconcile r j h =>
    obtain ⟨o, ho, hfit, hp⟩ := hrec r j h rfl
    refine hb.go rfl rfl rfl rfl rfl fun c hc => ?_
    cases hc
    exact ⟨hb.rests_reconciling ho hp, hkeeps _ _ fun r' hr => by cases hr; exact ⟨o, ho, hfit⟩⟩
  | resume r =>
    obtain ⟨o, ho, hfit, hst⟩ := hres r rfl
    refine hb.go rfl rfl rfl rfl rfl fun c hc => ?_
    cases hc
    exact ⟨hb.rests_probing ho hst, hkeeps _ _ fun r' hr => by cases hr; exact ⟨o, ho, hfit⟩⟩
  | check e =>
    refine hb.go rfl rfl rfl rfl rfl fun c hc => ?_
    cases hc
    refine ⟨nofun, hkeeps _ _ fun r hr => ?_⟩
    obtain rfl : e = some r := hr
    exact hchk r rfl

lemma Backed.proceed (hb : Backed s) (now : ℕ) {req : Request K} {o : Order} (ho : s.heap r = some o)
    (hfit : o.Fits req) : Backed ((proceed cfg s now req r o).apply s t req) := by
  rcases proceed_cases cfg s now req r o with ⟨a, h⟩ | ⟨hst, h⟩ | ⟨-, h⟩ <;> rw [h]
  · exact hb.next req _ nofun nofun nofun
  · exact hb.next req _ nofun (fun r' hr => by cases hr; exact ⟨o, ho, hfit, hst⟩) nofun
  · exact hb.next req _ nofun nofun fun r' hr => by cases hr; exact ⟨o, ho, hfit⟩

/-- A call starts. -/
lemma Backed.begin (hb : Backed s) (now : ℕ) (req : Request K) :
    Backed ((begin cfg s now req).apply s t req) := by
  rcases begin_cases cfg s now req with
    ⟨a, h⟩ | ⟨r, o, ⟨-, -, ho, hcm, hlim, -⟩, ⟨j, h₀, hp, h⟩ | ⟨-, h⟩⟩ | ⟨-, -, -, h⟩ <;> rw [h]
  · exact hb.next req _ nofun nofun nofun
  · exact hb.next req _ (fun r' j' h' hr => by cases hr; exact ⟨o, ho, ⟨hcm, hlim⟩, hp⟩) nofun nofun
  · exact hb.proceed now ho ⟨hcm, hlim⟩
  · exact hb.next req _ nofun nofun nofun

omit [DecidableEq T] [DecidableEq K] in
/-- The chain goes on, and what was sent for an insert stays paid. -/
lemma Backed.chain (hb : Backed s) (hle : s.chain.Le s'.chain) (hfacts : s'.chain.Facts)
    (hsent : ∀ h j, s'.chain.Sent h j → j.kind = .insert →
      s.chain.Sent h j ∨ ∃ h' logs, s.chain.Mined h' { j with kind := .settle } logs)
    (hheap : s'.heap = s.heap) (horders : s'.orders = s.orders) (hfile : s'.file = s.file)
    (hcalls : ∀ t c, s'.call t = some c → s'.Rests c.pc ∧ s'.Keeps c) : Backed s' := by
  refine ⟨hfacts, fun h j hs hj => ?_, fun r o ho => hle.backs (hb.heap r o (hheap ▸ ho)),
    fun k o ho => hle.backs (hb.file k o (hfile ▸ ho)), fun k n hn => ?_, fun t c h => (hcalls t c h).1,
    fun t c h => (hcalls t c h).2⟩
  · obtain ⟨h', logs, hm⟩ := (hsent h j hs hj).elim (fun h' => hb.paid h j h' hj) id
    exact ⟨h', logs, hle.mined hm⟩
  · rw [hheap]
    exact hb.kept k n (horders ▸ hn)

/-- **One step keeps what orders rest on.** -/
theorem Backed.step (hb : Backed s) (hst : Step cfg s l s') : Backed s' := by
  cases hst with
  | call t req now _ _ => exact hb.begin now req
  | @proceed t req rep r o now hc ho =>
    obtain ⟨o', ho', hfit⟩ := hb.keeps t _ hc r (.inl rfl)
    obtain rfl := Option.some.inj (ho.symm.trans ho')
    exact hb.proceed now ho (hfit req rep rfl)
  | exit _ _ => exact hb.stop rfl rfl rfl rfl rfl
  | @act t req rep r hc =>
    obtain ⟨o, ho, hfit⟩ := hb.keeps t _ hc r (.inl rfl)
    refine hb.go rfl rfl rfl rfl rfl fun c h => ?_
    cases h
    refine ⟨fun r' hr => ?_, (hb.keeps t _ hc).of_subset (fun r' hr => hr) fun req' _ h => ⟨rep, by cases h; rfl⟩⟩
    obtain rfl := Option.some.inj hr
    exact ⟨o, ho, nofun, nofun⟩
  | @create t req rep n hc hf =>
    have hself : update s.heap (req.key, n) (some (.new req.commitment req.limit)) (req.key, n) = some (.new req.commitment req.limit) :=
      Function.update_self ..
    have hbacks : s.chain.Backs req.key (.new req.commitment req.limit) := by
      refine ⟨fun j h hh => ?_, fun hp => ?_⟩
      · cases j <;> cases hh
      · rcases hp with h | h | h <;> cases h
    refine hb.write (r := (req.key, n)) (.write rfl rfl fun o ho => by cases hf.1.symm.trans ho) rfl rfl hbacks
      (fun _ _ h => .inl h) (.inl rfl) rfl fun c h => ?_
    cases h
    refine ⟨fun r' hr => ?_, fun r' hr => ?_⟩
    · obtain rfl := Option.some.inj hr
      exact ⟨_, hself, nofun, nofun⟩
    · obtain rfl := Option.some.inj (hr.resolve_right List.not_mem_nil)
      exact ⟨_, hself, fun req' rep' h => by cases h; exact ⟨rfl, rfl⟩⟩
  | @move t c c' l lock hc hm =>
    refine hb.go rfl rfl rfl rfl rfl fun d h => ?_
    cases h
    exact ⟨hm.rests hb (hb.rests t c hc), hm.keeps (hb.keeps t c hc)⟩
  | @put t r o o' c c' l lock w hc ho hp =>
    have hext : s.Extends (((s.put r o' w).setCall t (some c')).setLock lock) := .of_alike rfl rfl ho hp.alike
    refine hb.write hext rfl rfl (hp.backs ho (hb.heap r o ho) (hb.rests t c hc)) (fun k n hn => ?_)
      (System.file_put (w := w)) rfl fun d h => ?_
    · by_cases hk : k = r.1
      · subst hk
        have hn' : r.2 = n := Option.some.inj ((System.orders_put (s := s) (o := o') (w := w)).symm.trans hn)
        exact .inr (Prod.ext rfl hn'.symm)
      · exact .inl ((System.sameAt_put (o := o') (w := w) hk).1 ▸ hn)
    · cases h
      refine ⟨hp.rests ho (hb.rests t c hc) (System.heap_put (w := w)) rfl, hext.keeps ?_⟩
      exact (hb.keeps t c hc).of_subset (fun r' => hp.keeps) fun req rep h => ⟨rep, hp.task_eq ▸ h⟩
  | @present t task r o limit hc _ ho =>
    obtain ⟨o₁, ho₁, -, hset⟩ := hb.rests t _ hc r rfl
    obtain rfl := Option.some.inj (ho.symm.trans ho₁)
    have hext : s.Extends ((s.setOrder r { o with state := some .inserted }).setCall t (some ⟨task, .rooting r⟩)) :=
      .of_alike rfl rfl ho ⟨rfl, rfl⟩
    refine hb.write hext rfl rfl ⟨(hb.heap r o ho).sent, fun _ => hset trivial⟩ (fun _ _ h => .inl h) (.inl rfl) rfl
      fun d h => ?_
    cases h
    refine ⟨fun r' hr => ?_, hext.keeps ((hb.keeps t _ hc).of_subset (fun r' hr => hr) fun req rep h => ⟨rep, h⟩)⟩
    obtain rfl := Option.some.inj hr
    exact ⟨_, System.heap_setOrder, nofun, fun _ => hset trivial⟩
  | @broadcast t task r j o h hc ho hf =>
    have hle : s.chain.Le (s.chain.put h (o.job r.1 j) none) := Chain.le_put hf
    have hext : s.Extends ((s.setCall t (some ⟨task, .sent r j h⟩)).setChain (s.chain.put h (o.job r.1 j) none)) :=
      ⟨hle, fun r' o' ho' => ⟨o', ho', .refl o'⟩⟩
    obtain ⟨o₁, ho₁, -, hset⟩ := hb.rests t _ hc r rfl
    obtain rfl := Option.some.inj (ho.symm.trans ho₁)
    refine hb.chain hle (hb.facts.put nofun) (fun h' j' hs hj => ?_) rfl rfl rfl fun t' d hd => ?_
    · by_cases hh : h' = h
      · subst hh
        obtain ⟨rc, hx⟩ := hs
        cases Chain.put_tx.symm.trans hx
        exact .inr (hset hj)
      · obtain ⟨rc, hx⟩ := hs
        exact .inl ⟨rc, (Chain.put_tx_of_ne hh).symm.trans hx⟩
    · refine calls_step (P := fun s c => s.Rests c.pc ∧ s.Keeps c) (s := s) rfl (fun c hc => ⟨hext.rests hc.1, hext.keeps hc.2⟩)
        (fun t c h => ⟨hb.rests t c h, hb.keeps t c h⟩) (fun c h' => ?_) t' d hd
      cases h'
      refine ⟨fun r' hr => ?_, hext.keeps ((hb.keeps t _ hc).of_subset (fun r' hr => hr) fun req rep h => ⟨rep, h⟩)⟩
      obtain rfl := Option.some.inj hr
      refine ⟨o, ho, fun i x hx => ?_, fun hp => hle.settled (hset hp)⟩
      cases hx
      exact ⟨none, Chain.put_tx⟩
  | leave _ => exact hb.stop rfl rfl rfl rfl rfl
  | ready _ => exact hb.stop rfl rfl rfl rfl rfl
  | @chain e c hc =>
    have hext : s.Extends (s.setChain c) := ⟨hc.le, fun r o ho => ⟨o, ho, .refl o⟩⟩
    refine hb.chain hc.le (hb.facts.step hc) (fun h j hs _ => .inl ?_) rfl rfl rfl
      fun t d hd => ⟨hext.rests (hb.rests t d hd), hext.keeps (hb.keeps t d hd)⟩
    obtain ⟨rc, hx⟩ := hs
    rcases hc.tx h with heq | ⟨j', rc', hp, hp'⟩
    · exact ⟨rc, heq.symm.trans hx⟩
    · cases hp'.symm.trans hx
      exact ⟨none, hp⟩
  | @restart t todo _ hf =>
    have hheap : ∀ r o, (s.restart t todo).heap r = some o → s.file r.1 = some o := by
      intro r o ho
      obtain ⟨-, ho'⟩ := Option.ite_none_right_eq_some.mp ho
      exact ho'
    refine ⟨hb.facts, hb.paid, fun r o ho => hb.file r.1 o (hheap r o ho), hb.file, fun k n hn => ?_,
      fun t' d hd => ?_, fun t' d hd r hr => ?_⟩
    · obtain ⟨o, ho, rfl⟩ := Option.map_eq_some_iff.mp hn
      exact ⟨o, ho⟩
    · rw [(System.call_restart hd).2]
      exact nofun
    · obtain ⟨-, rfl⟩ := System.call_restart hd
      obtain ⟨k, hk, rfl⟩ := List.mem_map.mp (hr.resolve_left nofun)
      obtain ⟨o, ho⟩ := Option.ne_none_iff_exists'.mp ((hf k).mp hk)
      exact ⟨o, ho, nofun⟩

end Step

end ShadeTree.Registrar
