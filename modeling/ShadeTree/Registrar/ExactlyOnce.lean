import ShadeTree.Registrar.Sound

/-!
# Exactly once for an authorization

As long as calls do not overlap, the registrar keeps one settlement and one insert standing for an
authorization, no more calls in flight than configured, and the state of a stored order.  The checks stand
before the first `await` and the marks after the last one, so calls do overlap: two identical requests can
both pass, and the one that fails then writes `failed` over the order of the other.
-/

namespace ShadeTree.Registrar

open Function (update)
open ShadeTree.Lib

variable {K T : Type}

/-- What a call that adds its key to the ones in flight leaves room for. -/
def Config.Room (cfg : Config) (s : System K T) : Label K T → Prop
  | .acted _ _ _ _ _ => s.inflight.card < cfg.maxInflight
  | .resumed _ _ _ => s.inflight.card < cfg.maxInflight
  | _ => True

/-- At a restart the file holds the stored orders. -/
def System.Current (s : System K T) : Label K T → Prop
  | .restarted _ => ∀ k, s.file k = s.stored k
  | _ => True

/-- The condition on a step: what the call checked before it awaited still holds, the bound on the calls in
flight included, and no broadcast and no write of the file is lost. -/
structure Config.Orderly (cfg : Config) (s : System K T) (l : Label K T) : Prop where
  overlap : s.NoOverlap l
  recorded : ∀ j, s.Recorded j l
  room : cfg.Room s l
  current : s.Current l

/-- The order goes on: it stays paid, and inserted if it was. -/
structure Order.Onward (o o' : Order) : Prop where
  paid : o'.Paid
  inserted : o.state = some .inserted → o'.state = some .inserted
  commitment : o'.commitment = o.commitment
  limit : o'.limit = o.limit

/-! ### The state of an order -/

section Onward

variable {s s' : System K T} {t : T} {l : Label K T} {r : Ref K} {o o' : Order} {lock : Option T} {k : K}

lemma Order.Onward.rfl' (h : o.Paid) : o.Onward o := ⟨h, fun h => h, rfl, rfl⟩

lemma Order.Onward.trans {o'' : Order} (h : o.Onward o') (h' : o'.Onward o'') : o.Onward o'' :=
  ⟨h'.paid, fun hi => h'.inserted (h.inserted hi), h'.commitment.trans h.commitment, h'.limit.trans h.limit⟩

/-- A receipt that a paid order waits for is that of its insert. -/
lemma Order.Paid.finish {j : Kind} {h : ℕ} {rc : Receipt} (hp : o.Paid) (hpd : o.pending = some (j, h)) :
    o.Onward (o.finish j rc) := by
  cases j with
  | settle => exact absurd (Order.pending_settle.mp hpd).1 hp.not_settling
  | insert =>
    have hst := (Order.pending_insert.mp hpd).1
    have hno : o.state ≠ some .inserted := by
      intro hi
      cases hst.symm.trans hi
    cases rc with
    | ok logs => exact ⟨.inr (.inr rfl), fun _ => rfl, rfl, rfl⟩
    | reverted => exact ⟨.inl rfl, fun hi => absurd hi hno, rfl, rfl⟩

lemma Puts.onward {c c' : Call K} (hp : Puts s t r o c l c' o' lock) (hh : s.Holding c.pc)
    (hl : s.NoOverlap l) (ho : s.heap r = some o) {o₀ : Order} (ho₀ : s.stored r.1 = some o₀) (hpaid : o₀.Paid) :
    o₀.Onward o' := by
  cases hp with
  | reconciled _ =>
    obtain ⟨rfl, hpd⟩ := hl.2.of_stored ho ho₀
    exact hpaid.finish hpd
  | @recorded task j h =>
    cases j with
    | settle =>
      obtain ⟨-, hf⟩ : s.Unpaid r := hh
      exact absurd (hf _ ho₀) hpaid.not_failed
    | insert =>
      obtain ⟨rfl, hset⟩ := System.Has.of_stored hh ho ho₀
      refine ⟨.inr (.inl rfl), fun hi => ?_, rfl, rfl⟩
      cases hset.symm.trans hi
  | confirmed _ =>
    obtain ⟨rfl, hpd⟩ := System.Has.of_stored hh ho ho₀
    exact hpaid.finish hpd
  | rooted =>
    obtain ⟨rfl, -⟩ := System.Has.of_stored hh ho ho₀
    exact ⟨hpaid, fun hi => hi, rfl, rfl⟩
  | @caught req rep j timedOut =>
    cases j with
    | settle =>
      rcases hh with ⟨-, hf⟩ | hh
      · exact absurd (hf _ ho₀) hpaid.not_failed
      · obtain ⟨rfl, hst, -⟩ := System.Has.of_stored hh ho ho₀
        exact absurd hst hpaid.not_settling
    | insert =>
      obtain ⟨rfl, -⟩ := System.Has.of_stored hh ho ho₀
      exact .rfl' hpaid

variable [DecidableEq K] [DecidableEq T] {cfg : Config}

/-- **One step keeps the state of a paid order.** -/
lemma Sound.onward (hs : Sound s) (hl : s.NoOverlap l) (hcur : s.Current l) (hst : Step cfg s l s')
    (ho : s.stored k = some o) (hpaid : o.Paid) : ∃ o', s'.stored k = some o' ∧ o.Onward o' := by
  have hsame : s'.stored k = s.stored k → ∃ o', s'.stored k = some o' ∧ o.Onward o' :=
    fun h => ⟨o, h.trans ho, .rfl' hpaid⟩
  have hnext : ∀ (nx : Next K) (t : T) (req : Request K), (nx.apply s t req).stored k = s.stored k := by
    intro nx t req
    cases nx <;> rfl
  cases hst with
  | call _ _ _ _ _ => exact hsame (hnext _ _ _)
  | proceed _ _ _ => exact hsame (hnext _ _ _)
  | create _ _ hf => exact hsame (System.stored_setOrder_of_ne hf.2)
  | @put t r o₁ o' c c' l lock w hc ho₁ hp =>
    by_cases hk : k = r.1
    · subst hk
      exact ⟨o', System.stored_put (w := w), hp.onward (hs.holding _ _ hc) hl ho₁ ho hpaid⟩
    · exact hsame (System.sameAt_put (o := o') (w := w) hk).stored
  | @present t task r o₁ limit hc _ ho₁ =>
    by_cases hk : k = r.1
    · subst hk
      have hh := hs.holding t _ hc
      obtain ⟨o₂, hs₂, hh₂, hset⟩ := System.Has.stored hh
      obtain rfl := Option.some.inj (ho₁.symm.trans hh₂)
      obtain rfl := Option.some.inj (ho.symm.trans hs₂)
      exact ⟨_, System.stored_setOrder hh.1, .inr (.inr rfl), fun _ => rfl, rfl, rfl⟩
    · exact hsame (System.sameAt_setOrder (s := s) (o := { o₁ with state := some .inserted }) hk).stored
  | restart _ _ _ _ => exact hsame (System.stored_restart.trans (hcur k))
  | _ => exact hsame rfl

end Onward

/-! ### Runs -/

section Runs

variable {s s' : System K T} {l : Label K T} {j : Kind} {k : K} {h h' : ℕ}

/-- Two transactions of an authorization that both stand are the same. -/
lemma Sound.standing_unique [DecidableEq T] (hs : Sound s) (ha : s.Accounted j) (h₁ : s.chain.Standing j k h)
    (h₂ : s.chain.Standing j k h') : h = h' := by
  have hsent : ∀ t task r h₀, s.call t = some ⟨task, .sent r j h₀⟩ → ∀ o, s.stored r.1 = some o →
      ∀ h', ¬ o.Records h' j := by
    intro t task r h₀ hc o ho h' hr
    have hh := hs.holding t _ hc
    cases j with
    | settle => exact hr.not_failed (hh.2 o ho)
    | insert =>
      obtain ⟨o₁, hs₁, -, hset⟩ := System.Has.stored hh
      obtain rfl := Option.some.inj (ho.symm.trans hs₁)
      rcases hr.2 with h | h <;> cases hset.symm.trans h
  rcases ha k h h₁ with ⟨t, task, r, hc, rfl⟩ | ⟨o, ho, hr⟩ <;>
    rcases ha _ h' h₂ with ⟨t', task', r', hc', hk⟩ | ⟨o', ho', hr'⟩
  · obtain rfl := hs.turns.excl (k := r.1) hc hc' rfl (by rw [← hk]; rfl)
    cases hc.symm.trans hc'
    rfl
  · exact absurd hr' (hsent _ _ _ _ hc _ ho' _)
  · subst hk
    exact absurd hr (hsent _ _ _ _ hc' _ ho _)
  · obtain rfl := Option.some.inj (ho.symm.trans ho')
    cases j with
    | settle => exact Option.some.inj (hr.1.symm.trans hr'.1)
    | insert => exact Option.some.inj (hr.1.symm.trans hr'.1)

/-- What holds in every state of an orderly run. -/
structure Config.Exact (cfg : Config) (s : System K T) : Prop where
  sound : Sound s
  accounted : ∀ j, s.Accounted j
  inflight : s.inflight.card ≤ cfg.maxInflight

lemma Config.Exact.initial {cfg : Config} {c : Chain K} (hc : ∀ h, c.tx h = none) : cfg.Exact (System.initial c : System K T) := by
  refine ⟨Sound.initial c, fun j k h hst => ?_, Nat.zero_le _⟩
  obtain ⟨x, hx, -⟩ := hst
  cases (hc h).symm.trans hx

variable [DecidableEq K] [DecidableEq T] {cfg : Config}

lemma inflight_step (hc : s.inflight.card ≤ cfg.maxInflight) (hroom : cfg.Room s l) (hst : Step cfg s l s') :
    s'.inflight.card ≤ cfg.maxInflight := by
  have henter : ∀ k : K, s.inflight.card < cfg.maxInflight → (insert k s.inflight).card ≤ cfg.maxInflight := by
    intro k hlt
    have := Finset.card_insert_le k s.inflight
    omega
  have hnext : ∀ (nx : Next K) (t : T) (req : Request K), cfg.Room s (nx.label t req) →
      (nx.apply s t req).inflight.card ≤ cfg.maxInflight := by
    intro nx t req hroom
    cases nx with
    | resume r => exact henter _ hroom
    | _ => exact hc
  cases hst with
  | call _ _ _ _ _ => exact hnext _ _ _ hroom
  | proceed _ _ _ => exact hnext _ _ _ hroom
  | act _ => exact henter _ hroom
  | create _ _ _ => exact henter _ hroom
  | leave _ => exact Finset.card_erase_le.trans hc
  | restart _ _ _ _ => exact Nat.zero_le _
  | _ => exact hc

lemma Config.Exact.step (hi : cfg.Exact s) (hl : cfg.Orderly s l) (hst : Step cfg s l s') : cfg.Exact s' :=
  ⟨hi.sound.step hl.overlap hst, fun j => (hi.accounted j).step hi.sound hl.overlap (hl.recorded j) hst,
    inflight_step hi.inflight hl.room hst⟩

/-- **Exactly once.** In every run of calls, restarts, chain and node events whose steps are all orderly, at
most one settlement and one insert of an authorization stand, the calls in flight stay within the bound, and
a stored order that was paid or inserted stays so. -/
theorem exactly_once {c : Chain K} (hc : ∀ h, c.tx h = none) {tr : List (Label K T)}
    (hrun : Run (Restrict (Step cfg) cfg.Orderly) (System.initial c) tr s) :
    (∀ j k h h', s.chain.Standing j k h → s.chain.Standing j k h' → h = h') ∧
    s.inflight.card ≤ cfg.maxInflight ∧
    ∀ tr' s', Run (Restrict (Step cfg) cfg.Orderly) s tr' s' → ∀ k o, s.stored k = some o → o.Paid →
      ∃ o', s'.stored k = some o' ∧ o.Onward o' := by
  have hexact : cfg.Exact s := hrun.invariant_state (I := fun s => cfg.Exact s) (Config.Exact.initial hc)
    fun _ _ _ hi hst => hi.step hst.1 hst.2
  refine ⟨fun j k h h' => hexact.sound.standing_unique (hexact.accounted j), hexact.inflight, ?_⟩
  intro tr' s' hrun' k o ho hpaid
  have hinv : cfg.Exact s' ∧ ∃ o', s'.stored k = some o' ∧ o.Onward o' := by
    refine hrun'.invariant_state (I := fun s' => cfg.Exact s' ∧ ∃ o', s'.stored k = some o' ∧ o.Onward o')
      ⟨hexact, o, ho, .rfl' hpaid⟩ ?_
    rintro u l v ⟨hu, o', ho', hon⟩ ⟨hl, hst⟩
    obtain ⟨o'', ho'', hon'⟩ := hu.sound.onward hl.overlap hl.current hst ho' hon.paid
    exact ⟨hu.step hl hst, o'', ho'', hon.trans hon'⟩
  exact hinv.2

end Runs

/-! ### Two calls with one authorization -/

/-- Two identical requests pass the checks; the second fails and its order replaces the settled one. -/
theorem settled_order_becomes_failed :
    ∃ (tr tr' : List (Label ℕ ℕ)) (s s' : System ℕ ℕ),
      Run (Restrict (Step oneTier) fun _ l => l.Runs) (System.initial genesis) tr s ∧
      Run (Restrict (Step oneTier) fun _ l => l.Runs) s tr' s' ∧
      (s.stored 7).map Order.state = some (some .settled) ∧
      (s'.stored 7).map Order.state = some (some .failed) := by
  have h₀ : Run (Restrict (Step oneTier) fun _ l => l.Runs) (System.initial genesis) []
    (System.initial (T := ℕ) genesis) := .nil
  have h₁ := h₀.snoc (.of_step (.call 0 (tierRequest 7 42) 100 rfl rfl) trivial)
  have h₂ := h₁.snoc (.of_step (.call 1 (tierRequest 7 42) 100 rfl rfl) trivial)
  have h₃ := h₂.snoc (.of_step (.move (t := 0) rfl .readUsed) trivial)
  have h₄ := h₃.snoc (.of_step (.move (t := 1) rfl .readUsed) trivial)
  have h₅ := h₄.snoc (.of_step (.move (t := 0) rfl .readActive) trivial)
  have h₆ := h₅.snoc (.of_step (.move (t := 1) rfl .readActive) trivial)
  have h₇ := h₆.snoc (.of_step (.create (t := 0) 0 rfl ⟨rfl, by decide⟩) trivial)
  have h₈ := h₇.snoc (.of_step (.create (t := 1) 1 rfl ⟨rfl, by decide⟩) trivial)
  have h₉ := h₈.snoc (.of_step (.move (t := 0) rfl (.acquire rfl)) trivial)
  have h₁₀ := h₉.snoc (.of_step (.move (t := 0) rfl (.simulated rfl rfl)) trivial)
  have h₁₁ := h₁₀.snoc (.of_step (.broadcast (t := 0) 0 rfl rfl rfl) trivial)
  have h₁₂ := h₁₁.snoc (.of_step (.put (t := 0) true rfl rfl .recorded) trivial)
  have h₁₃ := h₁₂.snoc (.of_step (.chain (.mined (h := 0) rfl rfl)) trivial)
  have h₁₄ := h₁₃.snoc (.of_step (.put (t := 0) true rfl rfl (.confirmed rfl)) trivial)
  -- the second call finds the authorization used, and puts its own order object
  exact ⟨_, _, _, _, h₁₄, .cons (.of_step (.move (t := 1) rfl (.acquire rfl)) trivial)
    (.cons (.of_step (.move (t := 1) rfl (.refused rfl rfl)) trivial)
      (.single (.of_step (.put (t := 1) true rfl rfl .caught) trivial))), rfl, rfl⟩

/-- One sale from the request to the leaf. -/
theorem exactly_once_one_sale :
    ∃ (tr : List (Label ℕ ℕ)) (s : System ℕ ℕ),
      Run (Restrict (Step oneTier) oneTier.Orderly) (System.initial genesis) tr s ∧
      (s.stored 7).map Order.state = some (some .inserted) ∧
      (∀ j k h h', s.chain.Standing j k h → s.chain.Standing j k h' → h = h') ∧
      s.inflight.card ≤ 8 := by
  have hstep : ∀ (s : System ℕ ℕ) (t : ℕ), oneTier.Orderly s (.step t) :=
    fun _ _ => ⟨trivial, fun _ => trivial, trivial, trivial⟩
  have h₀ : Run (Restrict (Step oneTier) oneTier.Orderly) (System.initial genesis) []
    (System.initial (T := ℕ) genesis) := .nil
  have h₁ := h₀.snoc (.of_step (.call 0 (tierRequest 7 42) 100 rfl rfl) ⟨trivial, fun _ => trivial, trivial, trivial⟩)
  have h₂ := h₁.snoc (.of_step (.move (t := 0) rfl .readUsed) (hstep _ 0))
  have h₃ := h₂.snoc (.of_step (.move (t := 0) rfl .readActive) (hstep _ 0))
  have h₄ := h₃.snoc (.of_step (.create (t := 0) 0 rfl ⟨rfl, by decide⟩)
    ⟨⟨by decide, fun _ h => (by cases h), fun h => (by cases h)⟩, fun _ => trivial, (by show 0 < 8; omega), trivial⟩)
  have h₅ := h₄.snoc (.of_step (.move (t := 0) rfl (.acquire rfl)) (hstep _ 0))
  have h₆ := h₅.snoc (.of_step (.move (t := 0) rfl (.simulated rfl rfl)) (hstep _ 0))
  have h₇ := h₆.snoc (.of_step (.broadcast (t := 0) 0 rfl rfl rfl) (hstep _ 0))
  have h₈ := h₇.snoc (.of_step (.put (t := 0) true rfl rfl .recorded) (hstep _ 0))
  have h₉ := h₈.snoc (.of_step (.chain (.mined (h := 0) rfl rfl)) ⟨trivial, fun _ => trivial, trivial, trivial⟩)
  have h₁₀ := h₉.snoc (.of_step (.put (t := 0) true rfl rfl (.confirmed rfl)) (hstep _ 0))
  have h₁₁ := h₁₀.snoc (.of_step (.move (t := 0) rfl (.readLimit rfl)) (hstep _ 0))
  have h₁₂ := h₁₁.snoc (.of_step (.move (t := 0) rfl .absent) (hstep _ 0))
  have h₁₃ := h₁₂.snoc (.of_step (.move (t := 0) rfl (.acquire rfl)) (hstep _ 0))
  have h₁₄ := h₁₃.snoc (.of_step (.move (t := 0) rfl (.simulated rfl rfl)) (hstep _ 0))
  have h₁₅ := h₁₄.snoc (.of_step (.broadcast (t := 0) 1 rfl rfl rfl) (hstep _ 0))
  have h₁₆ := h₁₅.snoc (.of_step (.put (t := 0) true rfl rfl .recorded) (hstep _ 0))
  have h₁₇ := h₁₆.snoc (.of_step (.chain (.mined (h := 1) rfl rfl)) ⟨trivial, fun _ => trivial, trivial, trivial⟩)
  have h₁₈ := h₁₇.snoc (.of_step (.put (t := 0) true rfl rfl (.confirmed rfl)) (hstep _ 0))
  have hall := exactly_once (fun _ => rfl) h₁₈
  exact ⟨_, _, h₁₈, rfl, hall.1, hall.2.1⟩

end ShadeTree.Registrar
