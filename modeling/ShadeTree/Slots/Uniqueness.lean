import ShadeTree.Slots.Allocator

/-!
# What the allocators hand out

The invariant of a run: one process at most holds the lock, the file is never behind what a power loss
leaves, every slot handed out lies below both, and every slot below either is accounted for: handed out,
lost with a call, or there at the start.
-/

namespace ShadeTree.Slots

open ShadeTree.Lib

/-! ### Contents in order -/

/-- The slot is below the content: a later call on it takes another one or fails. -/
def Content.Below (x : ℕ × ℕ) : Content → Prop
  | .missing => False
  | .garbage => True
  | .text r _ _ => x.1 < r.epoch ∨ (x.1 = r.epoch ∧ x.2 < r.nextSlot)

/-- The order in which contents follow each other; garbage is final. -/
def Content.le : Content → Content → Prop
  | .missing, _ => True
  | _, .garbage => True
  | .text r _ _, .text r' _ _ => r.epoch < r'.epoch ∨ (r.epoch = r'.epoch ∧ r.nextSlot ≤ r'.nextSlot)
  | _, _ => False

lemma Content.le_refl (c : Content) : c.le c := by
  cases c <;> simp [Content.le]

lemma Content.le_garbage (c : Content) : c.le .garbage := by
  cases c <;> simp [Content.le]

lemma Content.le_trans {c d e : Content} (h : c.le d) (h' : d.le e) : c.le e := by
  cases c <;> cases d <;> cases e <;> simp only [Content.le] at h h' ⊢
  omega

lemma Content.Below.mono {x : ℕ × ℕ} {c d : Content} (h : c.Below x) (hle : c.le d) : d.Below x := by
  cases c <;> cases d <;> simp only [Content.le, Content.Below] at h hle ⊢
  omega

/-- Where the next slot of `epoch` is `n`: no later epoch and no later slot was saved. -/
def Content.Next (epoch n : ℕ) : Content → Prop
  | .missing => n = 0
  | .garbage => False
  | .text r _ _ => r.epoch ≤ epoch ∧ n = if r.epoch = epoch then r.nextSlot else 0

lemma Content.Next.le_written {c : Content} {e n : ℕ} (h : c.Next e n) : c.le (.written ⟨e, n + 1⟩) := by
  cases c with
  | missing => trivial
  | garbage => exact h.elim
  | text r js rust =>
    obtain ⟨hle, hn⟩ := h
    show r.epoch < e ∨ (r.epoch = e ∧ r.nextSlot ≤ n + 1)
    by_cases he : r.epoch = e
    · rw [if_pos he] at hn
      omega
    · omega

/-- Below the next slot of an epoch there are only earlier ones of it. -/
lemma Content.Next.lt_of_below {c : Content} {e n m : ℕ} (h : c.Next e n) (hm : c.Below (e, m)) : m < n := by
  cases c with
  | missing => exact hm.elim
  | garbage => exact h.elim
  | text r js rust =>
    obtain ⟨hle, hn⟩ := h
    have hm' : e < r.epoch ∨ (e = r.epoch ∧ m < r.nextSlot) := hm
    by_cases he : r.epoch = e
    · rw [if_pos he] at hn
      omega
    · omega

/-- The allocator rejects the text of the file. -/
def Corrupt (g : Program) (c : Content) : Prop := load g c = .error .corrupt

/-- The file holds a record, of an epoch and with a next slot that satisfy `Q`. -/
def Content.Has (Q : Record → Prop) : Content → Prop
  | .text r _ _ => Q r
  | _ => False

/-- The call cannot take a slot from this file: its text is corrupt, it is of a later epoch, or it is over
the limit in the epoch of the call. -/
def Refused (k : ℕ) (g : Program) (e : ℕ) (c : Content) : Prop :=
  Corrupt g c ∨ c.Has fun r => e < r.epoch ∨ (r.epoch = e ∧ k < r.nextSlot)

lemma load_ok {g : Program} {c : Content} {saved : Option Record} (h : load g c = .ok saved) :
    (c = .missing ∧ saved = none) ∨ ∃ r js rust, c = .text r js rust ∧ saved = some r := by
  cases c with
  | missing => exact .inl ⟨rfl, (Except.ok.inj h).symm⟩
  | garbage => cases h
  | text r js rust =>
    simp only [load] at h
    by_cases hacc : g.accepts js rust = true
    · rw [if_pos hacc] at h
      exact .inr ⟨r, js, rust, rfl, (Except.ok.inj h).symm⟩
    · rw [if_neg hacc] at h
      cases h

lemma load_error {g : Program} {c : Content} {e : AllocError} (h : load g c = .error e) : e = .corrupt := by
  cases c with
  | missing => cases h
  | garbage => exact (Except.error.inj h).symm
  | text r js rust =>
    simp only [load] at h
    by_cases hacc : g.accepts js rust = true
    · rw [if_pos hacc] at h
      cases h
    · rw [if_neg hacc] at h
      exact (Except.error.inj h).symm

/-- What loading leads to: a slot below the limit that is the next one of the file, or the end of the call
with nothing taken, and an error exactly for a file that is refused. -/
lemma afterLoad_cases (k : ℕ) (g : Program) (e : ℕ) (c : Content) :
    (∃ n, afterLoad k g e c = .saving g e n ∧ c.Next e n ∧ n < k ∧ ¬ Refused k g e c) ∨
      (afterLoad k g e c = .closing (.exhausted e) ∧ ¬ Refused k g e c) ∨
      ∃ err, afterLoad k g e c = .closing (.failed err none) ∧ Refused k g e c := by
  unfold afterLoad
  cases hl : load g c with
  | error err =>
    obtain rfl := load_error hl
    exact .inr (.inr ⟨_, rfl, .inl hl⟩)
  | ok saved =>
    have hnc : ¬ Corrupt g c := by
      intro h
      cases hl.symm.trans h
    rcases load_ok hl with ⟨rfl, rfl⟩ | ⟨r, js, rust, rfl, rfl⟩
    · have hnr : ¬ Refused k g e .missing := by
        rintro (h | h)
        · exact hnc h
        · exact h
      by_cases hk : k = 0
      · exact .inr (.inl ⟨by simp [Except.bind, advance, cursor, hk], hnr⟩)
      · refine .inl ⟨0, ?_, rfl, by omega, hnr⟩
        simp [Except.bind, advance, cursor, Ne.symm hk]
    · have hiff : Refused k g e (.text r js rust) ↔ e < r.epoch ∨ (r.epoch = e ∧ k < r.nextSlot) :=
        ⟨fun h => h.resolve_left hnc, .inr⟩
      rw [hiff]
      by_cases hroll : e < r.epoch
      · exact .inr (.inr ⟨.epochRollback r.epoch e, by simp [Except.bind, advance, hroll], .inl hroll⟩)
      by_cases hover : k < cursor e (some r)
      · refine .inr (.inr ⟨.corrupt, by simp [Except.bind, advance, hroll, hover], .inr ?_⟩)
        unfold cursor at hover
        by_cases he : r.epoch = e
        · exact ⟨he, by simpa [he] using hover⟩
        · simp [he] at hover
      have hnr : ¬ (e < r.epoch ∨ (r.epoch = e ∧ k < r.nextSlot)) := by
        rintro (h | ⟨he, h⟩)
        · exact hroll h
        · exact hover (by simpa [cursor, he] using h)
      by_cases hfull : cursor e (some r) = k
      · refine .inr (.inl ⟨?_, hnr⟩)
        simp [Except.bind, advance, hroll, hfull]
      · refine .inl ⟨cursor e (some r), ?_, ⟨by omega, rfl⟩, by omega, hnr⟩
        simp [Except.bind, advance, hroll, hover, hfull]

/-! ### The trace -/

section Trace

variable {P : Type}

/-- The slots handed out, in order. -/
def returnedSlots (tr : List (Label P)) : List (ℕ × ℕ) :=
  tr.filterMap fun
    | .returned _ e n => some (e, n)
    | _ => none

/-- The label gives up a slot: a call that crashed, failed, or was ended by a power loss had taken it. -/
def Label.Loses (x : ℕ × ℕ) : Label P → Prop
  | .failed _ _ burnt => burnt = some x
  | .crashed _ burnt => burnt = some x
  | .powerLoss pcs => ∃ p, (pcs p).burnt = some x
  | _ => False

/-- The slot was handed out or lost. -/
def Accounted (tr : List (Label P)) (x : ℕ × ℕ) : Prop := x ∈ returnedSlots tr ∨ ∃ l ∈ tr, l.Loses x

/-- The slot was gone before the run. -/
def Before (init : Content) (x : ℕ × ℕ) : Prop := init.Has fun r => r.epoch = x.1 ∧ x.2 < r.nextSlot

lemma returnedSlots_snoc (tr : List (Label P)) (l : Label P) :
    returnedSlots (tr ++ [l]) = returnedSlots tr ++ returnedSlots [l] := by
  simp [returnedSlots]

lemma Accounted.mono {tr : List (Label P)} {x : ℕ × ℕ} (l : Label P) (h : Accounted tr x) :
    Accounted (tr ++ [l]) x := by
  rcases h with h | ⟨l', hl', hx⟩
  · rw [Accounted, returnedSlots_snoc]
    exact .inl (List.mem_append_left _ h)
  · exact .inr ⟨l', List.mem_append_left _ hl', hx⟩

lemma Accounted.of_loses {tr : List (Label P)} {x : ℕ × ℕ} {l : Label P} (h : l.Loses x) :
    Accounted (tr ++ [l]) x := .inr ⟨l, by simp, h⟩

end Trace

/-! ### The invariant -/

section Invariant

variable {P : Type} {on : Platform} {k : ℕ} {init : Content} {tr : List (Label P)}
  {s t : System P} {l : Label P} {p : P}

/-- The slots below a content are accounted for, or taken by a process that has not ended. -/
def Accounts (init : Content) (tr : List (Label P)) (pc : P → Pc) (c : Content) : Prop :=
  ∀ r js rust, c = .text r js rust → ∀ m < r.nextSlot,
    Before init (r.epoch, m) ∨ Accounted tr (r.epoch, m) ∨ ∃ p, (pc p).burnt = some (r.epoch, m)

/-- The slot is the next one to hand out in its epoch. -/
structure Fresh (k : ℕ) (init : Content) (tr : List (Label P)) (e n : ℕ) : Prop where
  lt : n < k
  above : ∀ m, (e, m) ∈ returnedSlots tr → m < n
  full : ∀ m < n, Before init (e, m) ∨ Accounted tr (e, m)

/-- What holds where a process is. -/
def AtPc (k : ℕ) (init : Content) (tr : List (Label P)) (file disk : Content) : Pc → Prop
  | .saving _ e n => file.Next e n ∧ Fresh k init tr e n
  | .truncated _ e n => file = .garbage ∧ disk.le (.written ⟨e, n + 1⟩) ∧ Fresh k init tr e n
  | .replaced _ e n => file = .written ⟨e, n + 1⟩ ∧ Fresh k init tr e n
  | .closing (.returned e n) => file.Below (e, n) ∧ disk.Below (e, n) ∧ Fresh k init tr e n
  | _ => True

structure Inv (k : ℕ) (init : Content) (tr : List (Label P)) (s : System P) : Prop where
  mutex : ∀ p q, (s.pc p).holds = true → (s.pc q).holds = true → p = q
  held : ∀ p, (s.pc p).holds = true → s.lock = true
  behind : s.disk.le s.file
  below : ∀ x ∈ returnedSlots tr, s.disk.Below x
  fileAccounts : Accounts init tr s.pc s.file
  diskAccounts : Accounts init tr s.pc s.disk
  atPc : ∀ p, AtPc k init tr s.file s.disk (s.pc p)
  bounded : ∀ x ∈ returnedSlots tr, x.2 < k
  increasing : (returnedSlots tr).Pairwise fun x y => x.1 = y.1 → x.2 < y.2

/-- A process that does not hold the lock asks nothing of the file. -/
lemma AtPc.of_not_holds {file disk : Content} {c : Pc} (h : c.holds = false) :
    AtPc k init tr file disk c := by
  cases c <;> simp_all [Pc.holds, AtPc]

/-- Only a process that holds the lock has taken a slot. -/
lemma Pc.burnt_of_not_holds {c : Pc} (h : c.holds = false) : c.burnt = none := by
  cases c <;> simp_all [Pc.holds, Pc.burnt]

lemma Fresh.mono {e n : ℕ} (h : Fresh k init tr e n) (hl : returnedSlots [l] = []) :
    Fresh k init (tr ++ [l]) e n := by
  refine ⟨h.lt, fun m hm => ?_, fun m hm => ?_⟩
  · rw [returnedSlots_snoc, hl, List.append_nil] at hm
    exact h.above m hm
  · exact (h.full m hm).imp_right (Accounted.mono l)

/-- The next slot of an epoch on the file of the process that holds the lock. -/
lemma Inv.fresh (h : Inv k init tr s) (hp : (s.pc p).holds = true) (hb : (s.pc p).burnt = none) {e n : ℕ}
    (hn : s.file.Next e n) (hk : n < k) : Fresh k init tr e n := by
  refine ⟨hk, fun m hm => ?_, fun m hm => ?_⟩
  · exact hn.lt_of_below ((h.below _ hm).mono h.behind)
  · rcases hf : s.file with - | - | ⟨r, js, rust⟩
    · rw [hf] at hn
      have hn0 : n = 0 := hn
      omega
    · rw [hf] at hn
      exact hn.elim
    · rw [hf] at hn
      obtain ⟨hle, hn⟩ := hn
      by_cases he : r.epoch = e
      · rw [if_pos he] at hn
        subst he
        rcases h.fileAccounts r js rust hf m (by omega) with hb | ha | ⟨q, hq⟩
        · exact .inl hb
        · exact .inr ha
        · -- a slot taken and not yet accounted for is that of the holder, which has none
          have hqh : (s.pc q).holds = true := by
            by_contra hne
            rw [Pc.burnt_of_not_holds (by simpa using hne)] at hq
            cases hq
          obtain rfl := h.mutex q p hqh hp
          rw [hb] at hq
          cases hq
      · rw [if_neg he] at hn
        omega

/-- A content keeps its account when the label loses what the process gave up. -/
lemma Accounts.mono {pc pc' : P → Pc} {c : Content} (h : Accounts init tr pc c)
    (hb : ∀ q x, (pc q).burnt = some x → (∃ q', (pc' q').burnt = some x) ∨ Accounted (tr ++ [l]) x) :
    Accounts init (tr ++ [l]) pc' c := by
  intro r js rust hc m hm
  rcases h r js rust hc m hm with hbef | ha | ⟨q, hq⟩
  · exact .inl hbef
  · exact .inr (.inl (ha.mono l))
  · exact .inr ((hb q _ hq).symm)

/-- The account of what was just written. -/
lemma Accounts.written {pc : P → Pc} {e n : ℕ} (hfresh : Fresh k init tr e n)
    (hp : (pc p).burnt = some (e, n)) : Accounts init tr pc (.written ⟨e, n + 1⟩) := by
  intro r js rust hc m hm
  obtain ⟨rfl, -, -⟩ := Content.text.inj hc
  have hm' : m < n + 1 := hm
  rcases Nat.lt_succ_iff_lt_or_eq.mp hm' with hlt | rfl
  · exact (hfresh.full m hlt).imp_right .inl
  · exact .inr (.inr ⟨p, hp⟩)

lemma AtPc.mono {file disk : Content} {c : Pc} (h : AtPc k init tr file disk c)
    (hl : returnedSlots [l] = []) : AtPc k init (tr ++ [l]) file disk c := by
  rcases c with - | - | - | ⟨g, e, n⟩ | ⟨g, e, n⟩ | ⟨g, e, n⟩ | ⟨⟨e, n⟩ | e | ⟨err, b⟩⟩
  case saving => exact ⟨h.1, h.2.mono hl⟩
  case truncated => exact ⟨h.1, h.2.1, h.2.2.mono hl⟩
  case replaced => exact ⟨h.1, h.2.mono hl⟩
  case closing.returned => exact ⟨h.1, h.2.1, h.2.2.mono hl⟩
  all_goals trivial

/-- Where one process holds the lock, no other does. -/
lemma Inv.others (h : Inv k init tr s) (hp : (s.pc p).holds = true) :
    ∀ q, q ≠ p → (s.pc q).holds = false := by
  intro q hq
  by_contra hne
  exact hq (h.mutex q p (by simpa using hne) hp)

lemma Inv.initial (file : Content) (lock : Bool) :
    Inv k file ([] : List (Label P)) (System.initial file lock) := by
  have hacc : Accounts file ([] : List (Label P)) (fun _ => Pc.idle) file := by
    intro r js rust hc m hm
    refine .inl ?_
    rw [hc]
    exact ⟨rfl, hm⟩
  exact
    { mutex := fun p q hp _ => by cases hp
      held := fun p hp => by cases hp
      behind := Content.le_refl _
      below := fun x hx => by cases hx
      fileAccounts := hacc
      diskAccounts := hacc
      atPc := fun _ => trivial
      bounded := fun x hx => by cases hx
      increasing := List.Pairwise.nil }

variable [DecidableEq P]

/-- A step of a process that does not hold the lock and does not take it. -/
lemma Inv.outside (h : Inv k init tr s) (hp : (s.pc p).holds = false) {c : Pc} (hc : c.holds = false)
    (hl : returnedSlots [l] = []) : Inv k init (tr ++ [l]) (s.move p c) := by
  have hpc : ∀ q, ((s.move p c).pc q).holds = (s.pc q).holds := by
    intro q
    by_cases hq : q = p
    · subst hq
      simp [System.move, hp, hc]
    · simp [System.move, hq]
  have hburnt : ∀ q x, (s.pc q).burnt = some x →
      (∃ q', ((s.move p c).pc q').burnt = some x) ∨ Accounted (tr ++ [l]) x := by
    intro q x hx
    by_cases hq : q = p
    · subst hq
      rw [Pc.burnt_of_not_holds hp] at hx
      cases hx
    · exact .inl ⟨q, by simp [System.move, hq, hx]⟩
  have hslots : returnedSlots (tr ++ [l]) = returnedSlots tr := by
    rw [returnedSlots_snoc, hl, List.append_nil]
  refine
    { mutex := fun q q' hq hq' => h.mutex q q' (hpc q ▸ hq) (hpc q' ▸ hq')
      held := fun q hq => h.held q (hpc q ▸ hq)
      behind := h.behind
      below := fun x hx => h.below x (hslots ▸ hx)
      fileAccounts := h.fileAccounts.mono hburnt
      diskAccounts := h.diskAccounts.mono hburnt
      atPc := fun q => ?_
      bounded := fun x hx => h.bounded x (hslots ▸ hx)
      increasing := hslots ▸ h.increasing }
  by_cases hq : q = p
  · subst hq
    exact .of_not_holds (by simp [System.move, hc])
  · have hsame : (s.move p c).pc q = s.pc q := by simp [System.move, hq]
    rw [hsame]
    exact (h.atPc q).mono hl

/-- A step of the only process that holds the lock, or that takes it: what it must leave. -/
lemma Inv.holder (h : Inv k init tr s) (hothers : ∀ q, q ≠ p → (s.pc q).holds = false) {c : Pc}
    {file disk : Content} {lock : Bool} (hlock : c.holds = true → lock = true) (hle : disk.le file)
    (hmono : s.disk.le disk) (hret : ∀ x ∈ returnedSlots [l], s.pc p = .closing (.returned x.1 x.2))
    (hfile : Accounts init (tr ++ [l]) (Function.update s.pc p c) file)
    (hdisk : Accounts init (tr ++ [l]) (Function.update s.pc p c) disk)
    (hat : AtPc k init (tr ++ [l]) file disk c) :
    Inv k init (tr ++ [l]) ⟨file, disk, lock, Function.update s.pc p c⟩ := by
  have honly : ∀ q, (Function.update s.pc p c q).holds = true → q = p := by
    intro q hq
    by_contra hne
    rw [Function.update_of_ne hne, hothers q hne] at hq
    cases hq
  have hnew : ∀ x ∈ returnedSlots [l], s.disk.Below x ∧ Fresh k init tr x.1 x.2 := by
    intro x hx
    have hcl := h.atPc p
    rw [hret x hx] at hcl
    exact hcl.2
  refine
    { mutex := fun q q' hq hq' => (honly q hq).trans (honly q' hq').symm
      held := fun q hq => hlock (by simpa [honly q hq] using hq)
      behind := hle
      below := fun x hx => ?_
      fileAccounts := hfile
      diskAccounts := hdisk
      atPc := fun q => ?_
      bounded := fun x hx => ?_
      increasing := ?_ }
  · rw [returnedSlots_snoc] at hx
    rcases List.mem_append.mp hx with hx | hx
    · exact (h.below x hx).mono hmono
    · exact (hnew x hx).1.mono hmono
  · show AtPc k init (tr ++ [l]) file disk (Function.update s.pc p c q)
    by_cases hq : q = p
    · subst hq
      rw [Function.update_self]
      exact hat
    · rw [Function.update_of_ne hq]
      exact .of_not_holds (hothers q hq)
  · rw [returnedSlots_snoc] at hx
    rcases List.mem_append.mp hx with hx | hx
    · exact h.bounded x hx
    · exact (hnew x hx).2.lt
  · rw [returnedSlots_snoc]
    refine List.pairwise_append.mpr ⟨h.increasing, ?_, fun x hx y hy hxy => ?_⟩
    · cases l <;> simp [returnedSlots]
    · refine (hnew y hy).2.above x.2 ?_
      rw [← hxy]
      exact hx

/-- The accounts of both contents after a step that leaves them and does not forget a slot. -/
lemma Inv.accounts (h : Inv k init tr s) {c : Pc} {content : Content}
    (hc : content = s.file ∨ content = s.disk)
    (hb : ∀ x, (s.pc p).burnt = some x → c.burnt = some x ∨ Accounted (tr ++ [l]) x) :
    Accounts init (tr ++ [l]) (Function.update s.pc p c) content := by
  have hburnt : ∀ q x, (s.pc q).burnt = some x →
      (∃ q', (Function.update s.pc p c q').burnt = some x) ∨ Accounted (tr ++ [l]) x := by
    intro q x hx
    by_cases hq : q = p
    · subst hq
      exact (hb x hx).imp_left fun hx => ⟨q, by simpa using hx⟩
    · exact .inl ⟨q, by simp [hq, hx]⟩
  rcases hc with rfl | rfl
  · exact h.fileAccounts.mono hburnt
  · exact h.diskAccounts.mono hburnt

/-- A step of the holder that leaves file and disk, where the slot it had is kept or given up. -/
lemma Inv.stay (h : Inv k init tr s) (hh : (s.pc p).holds = true) {c : Pc} {lock : Bool}
    (hlock : c.holds = true → lock = true)
    (hret : ∀ x ∈ returnedSlots [l], s.pc p = .closing (.returned x.1 x.2))
    (hb : ∀ x, (s.pc p).burnt = some x → c.burnt = some x ∨ Accounted (tr ++ [l]) x)
    (hat : AtPc k init (tr ++ [l]) s.file s.disk c) :
    Inv k init (tr ++ [l]) { s.move p c with lock := lock } :=
  h.holder (h.others hh) hlock h.behind (Content.le_refl _) hret (h.accounts (.inl rfl) hb)
    (h.accounts (.inr rfl) hb) hat

/-- One step keeps the invariant. -/
lemma Inv.step (h : Inv k init tr s) (hst : AllocStep on k s l t) : Inv k init (tr ++ [l]) t := by
  cases hst with
  | call hp _ _ => exact h.outside (by simp [hp, Pc.holds]) rfl rfl
  | @invalid p g e hp _ _ =>
    have hsame : s.move p .idle = s := by simp [System.move, ← hp]
    have hinv := h.outside (l := .failed p .invalid none) (p := p) (by simp [hp, Pc.holds]) (c := .idle) rfl rfl
    rwa [hsame] at hinv
  | @acquire p g e hp hfree =>
    have hothers : ∀ q, q ≠ p → (s.pc q).holds = false := by
      intro q _
      by_contra hne
      rw [h.held q (by simpa using hne)] at hfree
      cases hfree
    refine h.holder hothers (fun _ => rfl) h.behind (Content.le_refl _) (by simp [returnedSlots]) ?_ ?_ trivial
    · exact h.accounts (.inl rfl) (by simp [hp, Pc.burnt])
    · exact h.accounts (.inr rfl) (by simp [hp, Pc.burnt])
  | timeout hp _ => exact h.outside (by simp [hp, Pc.holds]) rfl rfl
  | lockFails hp => exact h.outside (by simp [hp, Pc.holds]) rfl rfl
  | @load p g e hp =>
    have hh : (s.pc p).holds = true := by simp [hp, Pc.holds]
    have hb : (s.pc p).burnt = none := by simp [hp, Pc.burnt]
    refine h.stay hh (fun _ => h.held p hh) (by simp [returnedSlots]) (by simp [hb]) ?_
    rcases afterLoad_cases k g e s.file with ⟨n, ha, hn, hk, -⟩ | ⟨ha, -⟩ | ⟨err, ha, -⟩
    · rw [ha]
      exact ⟨hn, (h.fresh hh hb hn hk).mono rfl⟩
    · rw [ha]
      trivial
    · rw [ha]
      trivial
  | @readFails p g e hp =>
    have hh : (s.pc p).holds = true := by simp [hp, Pc.holds]
    exact h.stay hh (fun _ => h.held p hh) (by simp [returnedSlots]) (by simp [hp, Pc.burnt]) trivial
  | @rename p g e n hp _ =>
    have hh : (s.pc p).holds = true := by simp [hp, Pc.holds]
    have hb : (s.pc p).burnt = none := by simp [hp, Pc.burnt]
    obtain ⟨hn, hfresh⟩ : s.file.Next e n ∧ Fresh k init tr e n := by
      have hat := h.atPc p
      rwa [hp] at hat
    have hle := Content.le_trans h.behind hn.le_written
    have hwritten : Accounts init (tr ++ [.internal p]) (Function.update s.pc p (.replaced g e n))
        (.written ⟨e, n + 1⟩) :=
      .written (p := p) (hfresh.mono rfl) (by simp [Pc.burnt])
    refine h.holder (h.others hh) (fun _ => h.held p hh) ?_ ?_ (by simp [returnedSlots]) hwritten ?_
      ⟨rfl, hfresh.mono rfl⟩
    · split
      · exact hle
      · exact Content.le_refl _
    · split
      · exact Content.le_refl _
      · exact hle
    · split
      · exact h.accounts (.inr rfl) (by simp [hb])
      · exact hwritten
  | @truncate p g e n hp _ =>
    have hh : (s.pc p).holds = true := by simp [hp, Pc.holds]
    obtain ⟨hn, hfresh⟩ : s.file.Next e n ∧ Fresh k init tr e n := by
      have hat := h.atPc p
      rwa [hp] at hat
    refine h.holder (h.others hh) (fun _ => h.held p hh) (Content.le_garbage _) (Content.le_refl _)
      (by simp [returnedSlots]) ?_ (h.accounts (.inr rfl) (by simp [hp, Pc.burnt]))
      ⟨rfl, Content.le_trans h.behind hn.le_written, hfresh.mono rfl⟩
    intro r js rust hc
    cases hc
  | @saveFails p g e n hp =>
    have hh : (s.pc p).holds = true := by simp [hp, Pc.holds]
    exact h.stay hh (fun _ => h.held p hh) (by simp [returnedSlots]) (by simp [hp, Pc.burnt]) trivial
  | @write p g e n hp =>
    have hh : (s.pc p).holds = true := by simp [hp, Pc.holds]
    obtain ⟨-, hle, hfresh⟩ : s.file = .garbage ∧ s.disk.le (.written ⟨e, n + 1⟩) ∧ Fresh k init tr e n := by
      have hat := h.atPc p
      rwa [hp] at hat
    refine h.holder (h.others hh) (fun _ => h.held p hh) hle (Content.le_refl _) (by simp [returnedSlots])
      ?_ (h.accounts (.inr rfl) (by simp [hp, Pc.burnt])) ⟨rfl, hfresh.mono rfl⟩
    exact .written (p := p) (hfresh.mono rfl) (by simp [Pc.burnt])
  | @writeFails p g e n hp =>
    have hh : (s.pc p).holds = true := by simp [hp, Pc.holds]
    exact h.stay hh (fun _ => h.held p hh) (by simp [returnedSlots]) (by simp [hp, Pc.burnt]) trivial
  | @sync p g e n hp =>
    have hh : (s.pc p).holds = true := by simp [hp, Pc.holds]
    obtain ⟨hfile, hfresh⟩ : s.file = .written ⟨e, n + 1⟩ ∧ Fresh k init tr e n := by
      have hat := h.atPc p
      rwa [hp] at hat
    have hbelow : s.file.Below (e, n) := by
      rw [hfile]
      exact .inr ⟨rfl, Nat.lt_succ_self n⟩
    have hacc : Accounts init (tr ++ [.internal p]) (Function.update s.pc p (.closing (.returned e n)))
        s.file := h.accounts (.inl rfl) (by simp [hp, Pc.burnt])
    exact h.holder (h.others hh) (fun _ => h.held p hh) (Content.le_refl _) h.behind (by simp [returnedSlots])
      hacc hacc ⟨hbelow, hbelow, hfresh.mono rfl⟩
  | @syncFails p g e n disk hp hdisk =>
    have hh : (s.pc p).holds = true := by simp [hp, Pc.holds]
    have hacc : ∀ content, content = s.file ∨ content = s.disk → Accounts init (tr ++ [.internal p])
        (Function.update s.pc p (.closing (.failed .unavailable (some (e, n))))) content :=
      fun content hc => h.accounts hc (by simp [hp, Pc.burnt])
    refine h.holder (h.others hh) (fun _ => h.held p hh) ?_ ?_ (by simp [returnedSlots]) (hacc _ (.inl rfl))
      (hacc _ hdisk.symm) trivial
    · rcases hdisk with rfl | rfl
      · exact h.behind
      · exact Content.le_refl _
    · rcases hdisk with rfl | rfl
      · exact Content.le_refl _
      · exact h.behind
  | @release p o hp =>
    have hh : (s.pc p).holds = true := by simp [hp, Pc.holds]
    refine h.stay hh (by simp [Pc.holds]) ?_ ?_ trivial
    · rcases o with ⟨e, n⟩ | e | ⟨err, b⟩ <;> simp [returnedSlots, Outcome.label, hp]
    · intro x hx
      rw [hp] at hx
      rcases o with ⟨e, n⟩ | e | ⟨err, b⟩
      · refine .inr (.inl ?_)
        rw [returnedSlots_snoc]
        obtain rfl := Option.some.inj hx
        exact List.mem_append_right _ (by simp [returnedSlots, Outcome.label])
      · cases hx
      · exact .inr (.of_loses hx)
  | @releaseFails p o lock hp =>
    have hh : (s.pc p).holds = true := by simp [hp, Pc.holds]
    refine h.stay hh (by simp [Pc.holds]) (by simp [returnedSlots]) ?_ trivial
    intro x hx
    rw [hp] at hx
    exact .inr (.of_loses hx)
  | @crash p hp =>
    by_cases hh : (s.pc p).holds = true
    · exact h.stay hh (fun hc => by cases hc) (by simp [returnedSlots]) (fun x hx => .inr (.of_loses hx)) trivial
    · exact h.outside (by simpa using hh) rfl rfl
  | @powerLoss disk lock hdisk =>
    have hle : s.disk.le disk := by
      rcases hdisk with rfl | rfl | ⟨rfl, -⟩
      · exact Content.le_refl _
      · exact h.behind
      · exact Content.le_garbage _
    have hburnt : ∀ q x, (s.pc q).burnt = some x → (∃ q' : P, (Pc.idle).burnt = some x) ∨
        Accounted (tr ++ [.powerLoss s.pc]) x := fun q x hx => .inr (.of_loses ⟨q, hx⟩)
    have hacc : Accounts init (tr ++ [.powerLoss s.pc]) (fun _ => .idle) disk := by
      rcases hdisk with rfl | rfl | ⟨rfl, -⟩
      · exact h.diskAccounts.mono hburnt
      · exact h.fileAccounts.mono hburnt
      · intro r js rust hc
        cases hc
    have hslots : returnedSlots (tr ++ [.powerLoss s.pc]) = returnedSlots tr := by
      rw [returnedSlots_snoc]
      exact List.append_nil _
    exact
      { mutex := fun p q hp _ => by cases hp
        held := fun p hp => by cases hp
        behind := Content.le_refl _
        below := fun x hx => (h.below x (hslots ▸ hx)).mono hle
        fileAccounts := hacc
        diskAccounts := hacc
        atPc := fun _ => trivial
        bounded := fun x hx => h.bounded x (hslots ▸ hx)
        increasing := hslots ▸ h.increasing }
  | clearLock hnone =>
    have hslots : returnedSlots (tr ++ [.cleared]) = returnedSlots tr := by
      rw [returnedSlots_snoc]
      exact List.append_nil _
    exact
      { mutex := h.mutex
        held := fun p hp => absurd hp (by simp [hnone p])
        behind := h.behind
        below := fun x hx => h.below x (hslots ▸ hx)
        fileAccounts := h.fileAccounts.mono fun q x hx => .inl ⟨q, hx⟩
        diskAccounts := h.diskAccounts.mono fun q x hx => .inl ⟨q, hx⟩
        atPc := fun p => (h.atPc p).mono rfl
        bounded := fun x hx => h.bounded x (hslots ▸ hx)
        increasing := hslots ▸ h.increasing }

lemma run_inv {file : Content} {lock : Bool} (h : Run (AllocStep on k) (System.initial file lock) tr s) :
    Inv k file tr s := by
  refine h.invariant (I := Inv k file) (Inv.initial file lock) ?_
  intro tr t l u _ hinv hst
  exact hinv.step hst

/-! ### Epochs -/

/-- A step never takes a durable record back. -/
lemma Inv.disk_le (h : Inv k init tr s) (hst : AllocStep on k s l t) : s.disk.le t.disk := by
  cases hst with
  | @rename p g e n hp _ =>
    obtain ⟨hn, -⟩ : s.file.Next e n ∧ Fresh k init tr e n := by
      have hat := h.atPc p
      rwa [hp] at hat
    show s.disk.le (if g.syncsParent then s.disk else .written ⟨e, n + 1⟩)
    split
    · exact Content.le_refl _
    · exact Content.le_trans h.behind hn.le_written
  | sync _ => exact h.behind
  | syncFails _ hdisk =>
    rcases hdisk with rfl | rfl
    · exact Content.le_refl _
    · exact h.behind
  | powerLoss hdisk =>
    rcases hdisk with rfl | rfl | ⟨rfl, -⟩
    · exact Content.le_refl _
    · exact h.behind
    · exact Content.le_garbage _
  | _ => exact Content.le_refl _

/-- The file is not behind `c`, also not once a write under way is done. -/
def NotBehind (c : Content) (s : System P) : Prop :=
  c.le s.file ∧ ∀ p g e n, s.pc p = .truncated g e n → c.le (.written ⟨e, n + 1⟩)

/-- Without a power loss a step never takes a record of the file back. -/
lemma Inv.notBehind {c : Content} (h : Inv k init tr s) (hst : AllocStep on k s l t)
    (hl : ∀ pcs, l ≠ .powerLoss pcs) (hc : NotBehind c s) : NotBehind c t := by
  obtain ⟨hfile, htrunc⟩ := hc
  -- a process that moves anywhere but to a truncated file leaves the others where they are
  have hmove : ∀ p pc, (∀ g e n, pc ≠ .truncated g e n) → ∀ q g e n,
      Function.update s.pc p pc q = .truncated g e n → c.le (.written ⟨e, n + 1⟩) := by
    intro p pc hpc q g e n hq
    by_cases hqp : q = p
    · subst hqp
      rw [Function.update_self] at hq
      exact absurd hq (hpc g e n)
    · rw [Function.update_of_ne hqp] at hq
      exact htrunc q g e n hq
  cases hst with
  | invalid _ _ _ => exact ⟨hfile, htrunc⟩
  | clearLock _ => exact ⟨hfile, htrunc⟩
  | powerLoss _ => exact absurd rfl (hl _)
  | @load p g e hp =>
    refine ⟨hfile, hmove p _ ?_⟩
    rcases afterLoad_cases k g e s.file with ⟨n, ha, -⟩ | ⟨ha, -⟩ | ⟨err, ha, -⟩ <;> simp [ha]
  | @rename p g e n hp _ =>
    obtain ⟨hn, -⟩ : s.file.Next e n ∧ Fresh k init tr e n := by
      have hat := h.atPc p
      rwa [hp] at hat
    exact ⟨Content.le_trans hfile hn.le_written, hmove p _ (by simp)⟩
  | @truncate p g e n hp _ =>
    obtain ⟨hn, -⟩ : s.file.Next e n ∧ Fresh k init tr e n := by
      have hat := h.atPc p
      rwa [hp] at hat
    refine ⟨Content.le_garbage _, fun q g' e' n' hq => ?_⟩
    have hq' : Function.update s.pc p (.truncated g e n) q = .truncated g' e' n' := hq
    by_cases hqp : q = p
    · subst hqp
      rw [Function.update_self] at hq'
      obtain ⟨-, rfl, rfl⟩ := Pc.truncated.inj hq'
      exact Content.le_trans hfile hn.le_written
    · rw [Function.update_of_ne hqp] at hq'
      exact htrunc q g' e' n' hq'
  | @write p g e n hp => exact ⟨htrunc p g e n hp, hmove p _ (by simp)⟩
  | _ => exact ⟨hfile, hmove _ _ (by simp)⟩

/-! ### Calls that fail -/

/-- The process a label is about. -/
def Label.actor : Label P → Option P
  | .called p _ _ => some p
  | .internal p => some p
  | .returned p _ _ => some p
  | .exhausted p _ => some p
  | .failed p _ _ => some p
  | .crashed p _ => some p
  | .powerLoss _ => none
  | .cleared => none

/-- The call of `p` waits for a lock that is there, is about to load a file that is refused, or has failed. -/
def Failing (k : ℕ) (s : System P) (p : P) : Prop :=
  (∃ g e, s.pc p = .waiting g e ∧ s.lock = true) ∨
    (∃ g e, s.pc p = .locked g e ∧ Refused k g e s.file) ∨ ∃ err, s.pc p = .closing (.failed err none)

omit [DecidableEq P] in
lemma Outcome.label_actor (o : Outcome) : (o.label p).actor = some p := by
  cases o <;> rfl

/-- A call that is failing fails, or crashes, and leaves the stored state. -/
lemma Failing.step (h : Failing k s p) (hst : AllocStep on k s l t) (hl : l.actor = some p) :
    t.file = s.file ∧ t.disk = s.disk ∧ ((l = .internal p ∧ ∃ err, t.pc p = .closing (.failed err none)) ∨
      (∃ err, l = .failed p err none) ∨ l = .crashed p none) := by
  rcases h with ⟨g, e, hp, hlock⟩ | ⟨g, e, hp, href⟩ | ⟨err, hp⟩
  · cases hst with
    | timeout hq _ =>
      obtain rfl := Option.some.inj hl
      exact ⟨rfl, rfl, .inr (.inl ⟨_, rfl⟩)⟩
    | lockFails hq =>
      obtain rfl := Option.some.inj hl
      exact ⟨rfl, rfl, .inr (.inl ⟨_, rfl⟩)⟩
    | crash hq =>
      obtain rfl := Option.some.inj hl
      exact ⟨rfl, rfl, .inr (.inr (by rw [hp]; rfl))⟩
    | @release q o hq =>
      obtain rfl := Option.some.inj ((Outcome.label_actor o).symm.trans hl)
      cases hp.symm.trans hq
    | _ => simp_all [Label.actor]
  · cases hst with
    | @load q g' e' hq =>
      obtain rfl := Option.some.inj hl
      obtain ⟨rfl, rfl⟩ := Pc.locked.inj (hp.symm.trans hq)
      refine ⟨rfl, rfl, .inl ⟨rfl, ?_⟩⟩
      rcases afterLoad_cases k g e s.file with ⟨n, -, -, -, hn⟩ | ⟨-, hn⟩ | ⟨err, ha, -⟩
      · exact absurd href hn
      · exact absurd href hn
      · exact ⟨err, by simp [System.move, ha]⟩
    | readFails hq =>
      obtain rfl := Option.some.inj hl
      exact ⟨rfl, rfl, .inl ⟨rfl, .unavailable, by simp [System.move]⟩⟩
    | crash hq =>
      obtain rfl := Option.some.inj hl
      exact ⟨rfl, rfl, .inr (.inr (by rw [hp]; rfl))⟩
    | @release q o hq =>
      obtain rfl := Option.some.inj ((Outcome.label_actor o).symm.trans hl)
      cases hp.symm.trans hq
    | _ => simp_all [Label.actor]
  · cases hst with
    | @release q o hq =>
      obtain rfl := Option.some.inj ((Outcome.label_actor o).symm.trans hl)
      obtain rfl := Pc.closing.inj (hp.symm.trans hq)
      exact ⟨rfl, rfl, .inr (.inl ⟨err, rfl⟩)⟩
    | @releaseFails q o lock hq =>
      obtain rfl := Option.some.inj hl
      obtain rfl := Pc.closing.inj (hp.symm.trans hq)
      exact ⟨rfl, rfl, .inr (.inl ⟨.unavailable, rfl⟩)⟩
    | crash hq =>
      obtain rfl := Option.some.inj hl
      exact ⟨rfl, rfl, .inr (.inr (by rw [hp]; rfl))⟩
    | _ => simp_all [Label.actor]

/-- While a process holds the lock, the steps of the others leave the stored state and its call. -/
lemma Inv.frame (h : Inv k init tr s) (hp : (s.pc p).holds = true) (hst : AllocStep on k s l t)
    (hl : l.actor ≠ some p) (hpower : ∀ pcs, l ≠ .powerLoss pcs) :
    t.file = s.file ∧ t.disk = s.disk ∧ t.pc p = s.pc p := by
  have hmove : ∀ q c, q ≠ p → (s.move q c).pc p = s.pc p := by
    intro q c hq
    exact Function.update_of_ne hq.symm _ _
  -- only `p` can be inside the critical section
  have hin : ∀ q c, (Label.internal q).actor ≠ some p → s.pc q = c → c.holds = false := by
    rintro q c hq rfl
    exact h.others hp q fun hqp => hq (hqp ▸ rfl)
  have hne : ∀ {q : P} {l : Label P}, l.actor = some q → l.actor ≠ some p → q ≠ p := by
    rintro q l hq hq' rfl
    exact hq' hq
  cases hst with
  | call _ _ _ => exact ⟨rfl, rfl, hmove _ _ (hne rfl hl)⟩
  | invalid _ _ _ => exact ⟨rfl, rfl, rfl⟩
  | acquire _ hfree => rw [h.held p hp] at hfree; cases hfree
  | timeout _ _ => exact ⟨rfl, rfl, hmove _ _ (hne rfl hl)⟩
  | lockFails _ => exact ⟨rfl, rfl, hmove _ _ (hne rfl hl)⟩
  | crash _ => exact ⟨rfl, rfl, hmove _ _ (hne rfl hl)⟩
  | powerLoss _ => exact absurd rfl (hpower _)
  | clearLock hnone => rw [hnone p] at hp; cases hp
  | @release q o hq =>
    have hout := hin q _ (fun hq => hl ((Outcome.label_actor o).trans hq)) hq
    cases hout
  | releaseFails hq => cases hin _ _ hl hq
  | load hq => cases hin _ _ hl hq
  | readFails hq => cases hin _ _ hl hq
  | rename hq _ => cases hin _ _ hl hq
  | truncate hq _ => cases hin _ _ hl hq
  | saveFails hq => cases hin _ _ hl hq
  | write hq => cases hin _ _ hl hq
  | writeFails hq => cases hin _ _ hl hq
  | sync hq => cases hin _ _ hl hq
  | syncFails hq _ => cases hin _ _ hl hq

/-! ### The laws of every run -/

/-- What holds of the slots handed out over a run from `init`. -/
structure HandedOut (k : ℕ) (init : Content) (tr : List (Label P)) : Prop where
  unique : (returnedSlots tr).Nodup
  bounded : ∀ e n, (e, n) ∈ returnedSlots tr → n < k
  increasing : (returnedSlots tr).Pairwise fun x y => x.1 = y.1 → x.2 < y.2
  gapFree : ∀ pre p e n post, tr = pre ++ .returned p e n :: post →
    ∀ m < n, Before init (e, m) ∨ Accounted pre (e, m)

/-- The epoch of a record never goes back. -/
def EpochKept (c d : Content) : Prop :=
  ∀ r js rust r' js' rust', c = .text r js rust → d = .text r' js' rust' → r.epoch ≤ r'.epoch

lemma EpochKept.of_le {c d : Content} (h : c.le d) : EpochKept c d := by
  rintro r js rust r' js' rust' rfl rfl
  have hle : r.epoch < r'.epoch ∨ (r.epoch = r'.epoch ∧ r.nextSlot ≤ r'.nextSlot) := h
  omega

/-- A slot is handed out by the process that took it, when it removes the lock. -/
lemma AllocStep.of_returned {e n : ℕ} (hst : AllocStep on k s (.returned p e n) t) :
    s.pc p = .closing (.returned e n) := by
  generalize hl : Label.returned p e n = l at hst
  cases hst with
  | @release q o hq =>
    rcases o with ⟨e', n'⟩ | e' | ⟨err, b⟩
    · obtain ⟨rfl, rfl, rfl⟩ := Label.returned.inj hl
      exact hq
    · cases hl
    · cases hl
  | _ => cases hl

lemma run_handedOut {file : Content} {lock : Bool}
    (h : Run (AllocStep on k) (System.initial file lock) tr s) : HandedOut k file tr := by
  have hinv := run_inv h
  refine ⟨hinv.increasing.imp fun hlt heq => ?_, fun e n hx => hinv.bounded _ hx, hinv.increasing, ?_⟩
  · rw [heq] at hlt
    exact absurd (hlt rfl) (lt_irrefl _)
  · rintro pre p e n post rfl m hm
    obtain ⟨v, hpre, hpost⟩ := h.split
    obtain ⟨w, hst, -⟩ := hpost.uncons
    have hat := (run_inv hpre).atPc p
    rw [hst.of_returned] at hat
    exact hat.2.2.full m hm

/-- Without a power loss the epoch of the file never goes back. -/
lemma run_epochKept {file : Content} {lock : Bool} {tr' : List (Label P)}
    (h : Run (AllocStep on k) (System.initial file lock) tr s) (h' : Run (AllocStep on k) s tr' t)
    (hpower : ∀ pcs, Label.powerLoss pcs ∉ tr') : EpochKept s.file t.file := by
  rcases hf : s.file with - | - | ⟨r, js, rust⟩
  · rintro r js rust r' js' rust' hc
    cases hc
  · rintro r js rust r' js' rust' hc
    cases hc
  have hstart : NotBehind (.text r js rust) s := by
    refine ⟨hf ▸ Content.le_refl _, fun p g e n hp => ?_⟩
    have hat := (run_inv h).atPc p
    rw [hp] at hat
    rw [hf] at hat
    cases hat.1
  have hrun : (∀ pcs, Label.powerLoss pcs ∉ tr') → NotBehind (.text r js rust) t := by
    refine h'.invariant (I := fun tr' t => (∀ pcs, Label.powerLoss pcs ∉ tr') →
      NotBehind (.text r js rust) t) (fun _ => hstart) ?_
    intro tr₁ u l v hrun ih hst hno
    have hbefore : ∀ pcs, Label.powerLoss pcs ∉ tr₁ := fun pcs hmem => hno pcs (List.mem_append_left _ hmem)
    refine (run_inv (h.append hrun)).notBehind hst (fun pcs hl => ?_) (ih hbefore)
    exact hno pcs (List.mem_append_right _ (by simp [hl]))
  exact .of_le (hrun hpower).1

lemma run_disk_le {file : Content} {lock : Bool} {tr' : List (Label P)}
    (h : Run (AllocStep on k) (System.initial file lock) tr s) (h' : Run (AllocStep on k) s tr' t) :
    s.disk.le t.disk := by
  refine h'.invariant (I := fun _ t => s.disk.le t.disk) (Content.le_refl _) ?_
  intro tr₁ u l v hrun ih hst
  exact Content.le_trans ih ((run_inv (h.append hrun)).disk_le hst)

/-- A call that meets no other process and no failure takes the next slot of the file. -/
lemma call_alone (on : Platform) (k : ℕ) (file : Content) (g : Program) (e n : ℕ) (p : P) (hg : g ∈ programs on)
    (hvalid : g.valid k e) (hdirect : g.direct = false) (hload : afterLoad k g e file = .saving g e n) :
    ∃ (tr : List (Label P)) (s : System P), Run (AllocStep on k) (System.initial file false) tr s ∧ returnedSlots tr = [(e, n)] ∧
      s.file = .written ⟨e, n + 1⟩ := by
  have h₀ : Run (AllocStep on k) (System.initial file false) [] (System.initial (P := P) file false) := .nil
  have h₁ := h₀.snoc (.call (p := p) rfl hg hvalid)
  have h₂ := h₁.snoc (.acquire (Function.update_self ..) rfl)
  have h₃ := h₂.snoc (.load (Function.update_self ..))
  have hsaving : afterLoad k g e file = .saving g e n := hload
  have h₄ := h₃.snoc (.rename ((Function.update_self ..).trans hsaving) hdirect)
  have h₅ := h₄.snoc (.sync (Function.update_self ..))
  have h₆ := h₅.snoc (.release (Function.update_self ..))
  exact ⟨_, _, h₆, rfl, rfl⟩

end Invariant

end ShadeTree.Slots
