import Mathlib
import ShadeTree.Lib.Run
import ShadeTree.Lib.Table

/-!
# The payload budget (`makePayloadBudget` in `gateway/gateway.mjs`)

All connections that carry one proof share one allowance of bytes, kept under the epoch and the nullifier of
the proof.  An entry that no connection holds is dropped once it is older than the retention, and only when a
new entry is made or `sweep` is called.  A run interleaves the calls of any number of connections; a proof
stays acceptable until it lapses.
-/

namespace ShadeTree.Gateway

open ShadeTree.Lib

/-- `Number.MAX_SAFE_INTEGER`. -/
def MAX_SAFE_INTEGER : ℤ := 2 ^ 53 - 1

/-- The options, past their checks. -/
structure BudgetConfig where
  maxBytes : ℕ
  ttlMs : ℤ
  maxBytes_safe : (maxBytes : ℤ) ≤ MAX_SAFE_INTEGER
  ttlMs_pos : 0 < ttlMs

inductive BudgetError where
  | maxBytes | ttlMs | request
  deriving DecidableEq, Repr

/-- The checks of `makePayloadBudget`. -/
def makePayloadBudget (maxBytes ttlMs : ℤ) : Except BudgetError BudgetConfig :=
  if h : 0 ≤ maxBytes ∧ maxBytes ≤ MAX_SAFE_INTEGER then
    if h' : 0 < ttlMs ∧ ttlMs ≤ MAX_SAFE_INTEGER then
      .ok ⟨maxBytes.toNat, ttlMs, by omega, h'.1⟩
    else .error .ttlMs
  else .error .maxBytes

/-- `{ used, active, at }`. -/
structure BudgetEntry where
  used : ℕ
  active : ℕ
  «at» : ℤ
  deriving DecidableEq, Repr

/-- The epoch and the nullifier of a proof; an epoch is a numeral. -/
structure Slot where
  nullifier : String
  epoch : String
  plain : '\x00' ∉ epoch.toList
  deriving DecidableEq

/-- `keyOf(nullifier, epoch)`. -/
def Slot.keyOf (k : Slot) : String := k.epoch ++ "\x00" ++ k.nullifier

lemma Slot.keyOf_inj {k k' : Slot} (h : k.keyOf = k'.keyOf) : k = k' := by
  obtain ⟨n, e, he⟩ := k
  obtain ⟨n', e', he'⟩ := k'
  have hl : e.toList ++ '\x00' :: n.toList = e'.toList ++ '\x00' :: n'.toList := by
    simpa [keyOf] using congrArg String.toList h
  have hsplit : ∀ {a b c d : List Char}, '\x00' ∉ a → '\x00' ∉ c → a ++ '\x00' :: b = c ++ '\x00' :: d →
      a = c ∧ b = d := by
    intro a b c d ha hc heq
    induction a generalizing c with
    | nil =>
      cases c with
      | nil => exact ⟨rfl, (List.cons.inj heq).2⟩
      | cons x c =>
        obtain rfl := (List.cons.inj heq).1
        exact absurd List.mem_cons_self hc
    | cons x a ih =>
      cases c with
      | nil =>
        obtain rfl := (List.cons.inj heq).1
        exact absurd List.mem_cons_self ha
      | cons y c =>
        obtain ⟨rfl, htl⟩ := List.cons.inj heq
        obtain ⟨rfl, rfl⟩ := ih (fun hm => ha (List.mem_cons_of_mem _ hm)) (fun hm => hc (List.mem_cons_of_mem _ hm)) htl
        exact ⟨rfl, rfl⟩
  obtain ⟨h₁, h₂⟩ := hsplit he he' hl
  obtain rfl := String.toList_inj.mp h₁
  obtain rfl := String.toList_inj.mp h₂
  rfl

/-- `entries`. -/
abbrev PayloadBudget := Table String BudgetEntry

/-- What `take` returns; with no ceiling `used` is null and what remains is infinite. -/
structure Taken where
  allowed : ℕ
  used : Option ℕ
  remaining : Option ℕ
  exhausted : Bool
  deriving DecidableEq, Repr

namespace PayloadBudget

variable (C : BudgetConfig) (now : ℤ) (b : PayloadBudget) (k : Slot)

def sweep : PayloadBudget :=
  Table.keep (fun _ e => !decide (e.active = 0 ∧ e.at < now - C.ttlMs)) b

/-- The entry of the slot, which is made if there is none. -/
def entryFor : PayloadBudget × BudgetEntry :=
  match b.lookup k.keyOf with
  | some e => (b, e)
  | none => (AList.insert k.keyOf ⟨0, 0, now⟩ (b.sweep C now), ⟨0, 0, now⟩)

/-- `remaining(nullifier, epoch)`, `none` when there is no ceiling. -/
def remaining : PayloadBudget × Option ℕ :=
  if C.maxBytes = 0 then (b, none)
  else
    let (b, e) := b.entryFor C now k
    (b, some (C.maxBytes - e.used))

def acquire : PayloadBudget × Option ℕ :=
  if C.maxBytes = 0 then (b, none)
  else
    let (b, e) := b.entryFor C now k
    (b.insert k.keyOf { e with active := e.active + 1 }, some (C.maxBytes - e.used))

def release : PayloadBudget :=
  if C.maxBytes = 0 then b
  else
    match b.lookup k.keyOf with
    | none => b
    | some e =>
      b.insert k.keyOf
        { e with
          active := e.active - 1
          «at» := if e.active - 1 = 0 then now else e.at }

def take (requested : ℤ) : Except BudgetError (PayloadBudget × Taken) :=
  if ¬ (0 ≤ requested ∧ requested ≤ MAX_SAFE_INTEGER) then .error .request
  else if C.maxBytes = 0 then .ok (b, ⟨requested.toNat, none, none, false⟩)
  else
    let (b, e) := b.entryFor C now k
    let allowed := min requested.toNat (C.maxBytes - e.used)
    let used := e.used + allowed
    .ok (b.insert k.keyOf { e with used := used },
      ⟨allowed, some used, some (C.maxBytes - used), decide (C.maxBytes ≤ used)⟩)

/-- The bytes used up of the slot. -/
def usedOf : ℕ := ((b.lookup k.keyOf).map BudgetEntry.used).getD 0

/-- The connections that hold the slot. -/
def activeOf : ℕ := ((b.lookup k.keyOf).map BudgetEntry.active).getD 0

section Active

variable {C now b k} {k' : Slot} {e : BudgetEntry}

/-- An entry that is dropped was held by none. -/
@[simp] lemma activeOf_sweep : activeOf (b.sweep C now) k = activeOf b k := by
  unfold activeOf sweep
  rw [Table.lookup_keep]
  cases he : b.lookup k.keyOf with
  | none => rfl
  | some e =>
    by_cases hdrop : e.active = 0 ∧ e.at < now - C.ttlMs
    · simp [Option.filter, hdrop]
    · simp [Option.filter, hdrop]

lemma activeOf_insert : activeOf (AList.insert k.keyOf e b) k' = if k' = k then e.active else activeOf b k' := by
  unfold activeOf
  by_cases hk : k' = k
  · subst hk
    simp
  · rw [AList.lookup_insert_ne fun hkey => hk (Slot.keyOf_inj hkey), if_neg hk]

lemma active_entryFor : (b.entryFor C now k).2.active = activeOf b k := by
  unfold entryFor
  cases he : b.lookup k.keyOf with
  | some e => simp [activeOf, he]
  | none => simp [activeOf, he]

lemma activeOf_entryFor : activeOf (b.entryFor C now k).1 k' = activeOf b k' := by
  unfold entryFor
  cases he : b.lookup k.keyOf with
  | some e => rfl
  | none =>
    have hzero : activeOf b k = 0 := by simp [activeOf, he]
    rw [activeOf_insert, activeOf_sweep]
    split
    · next hk => rw [hk, hzero]
    · rfl

lemma activeOf_acquire (hC : C.maxBytes ≠ 0) :
    activeOf (b.acquire C now k).1 k' = activeOf b k' + if k' = k then 1 else 0 := by
  unfold acquire
  rw [if_neg hC]
  simp only [activeOf_insert, activeOf_entryFor, active_entryFor]
  split
  · next hk => rw [hk]
  · rfl

lemma activeOf_release (hC : C.maxBytes ≠ 0) :
    activeOf (b.release C now k) k' = activeOf b k' - if k' = k then 1 else 0 := by
  unfold release
  rw [if_neg hC]
  cases he : b.lookup k.keyOf with
  | none =>
    by_cases hk : k' = k
    · subst hk
      simp [activeOf, he]
    · simp [hk]
  | some e =>
    have hactive : activeOf b k = e.active := by simp [activeOf, he]
    simp only [activeOf_insert]
    split
    · next hk => rw [hk, hactive]
    · rfl

lemma activeOf_take {requested : ℤ} {b' : PayloadBudget} {r : Taken} (h : b.take C now k requested = .ok (b', r)) :
    activeOf b' k' = activeOf b k' := by
  unfold take at h
  split at h
  · cases h
  split at h
  · cases h
    rfl
  · have hentry : activeOf (b.entryFor C now k).1 k' = activeOf b k' := activeOf_entryFor
    have hactive : (b.entryFor C now k).2.active = activeOf b k := active_entryFor
    generalize b.entryFor C now k = entry at h hentry hactive
    obtain rfl := congrArg Prod.fst (Except.ok.inj h)
    rw [activeOf_insert, hentry]
    split
    · next hk => rw [hk, ← hactive]
    · rfl

end Active

section Take

variable {C now b k} {b' : PayloadBudget} {r : Taken} {requested : ℤ}

/-- What is requested is refused only if it is no safe integer. -/
lemma take_safe (C : BudgetConfig) (now : ℤ) (b : PayloadBudget) (k : Slot)
    (h : 0 ≤ requested ∧ requested ≤ MAX_SAFE_INTEGER) : ∃ b' r, b.take C now k requested = .ok (b', r) := by
  unfold take
  rw [if_neg (not_not.mpr h)]
  split <;> exact ⟨_, _, rfl⟩

/-- A take that does not exhaust the budget is allowed in full. -/
lemma take_all (h : b.take C now k requested = .ok (b', r)) (hr : r.exhausted = false) :
    r.allowed = requested.toNat := by
  unfold take at h
  split at h
  · cases h
  split at h
  · cases h
    rfl
  · generalize b.entryFor C now k = entry at h
    obtain rfl := congrArg Prod.snd (Except.ok.inj h)
    simp only [decide_eq_false_iff_not, not_le] at hr ⊢
    omega

end Take

end PayloadBudget

/-! ### Runs -/

/-- The budget, the slot each connection holds, and the slots whose proof a gateway still accepts; `since` is
when the last connection released a slot that none holds. -/
structure BudgetState (Conn : Type) where
  entries : PayloadBudget
  holds : List (Conn × Slot)
  acceptable : Slot → Bool
  since : Slot → Option ℤ

/-- What a call shows, with the clock it reads. -/
inductive BudgetEvent (Conn : Type) where
  | acquired (c : Conn) (k : Slot) (now : ℤ)
  | taken (c : Conn) (k : Slot) (now : ℤ) (requested allowed : ℕ)
  | refused (c : Conn) (k : Slot) (requested : ℤ)
  | released (c : Conn) (k : Slot) (now : ℤ)
  | asked (k : Slot) (now : ℤ)
  | swept (now : ℤ)
  | lapsed (k : Slot)

namespace BudgetEvent

variable {Conn : Type}

def clock : BudgetEvent Conn → Option ℤ
  | .acquired _ _ now => some now
  | .taken _ _ now _ _ => some now
  | .released _ _ now => some now
  | .asked _ now => some now
  | .swept now => some now
  | _ => none

/-- The slot that a call is for. -/
def slot : BudgetEvent Conn → Option Slot
  | .acquired _ k _ => some k
  | .taken _ k _ _ _ => some k
  | .refused _ k _ => some k
  | .released _ k _ => some k
  | .asked k _ => some k
  | _ => none

/-- The bytes requested, and those allowed, for the slot. -/
def requested (k : Slot) : BudgetEvent Conn → ℕ
  | .taken _ k' _ n _ => if k' = k then n else 0
  | _ => 0

def allowed (k : Slot) : BudgetEvent Conn → ℕ
  | .taken _ k' _ _ n => if k' = k then n else 0
  | _ => 0

end BudgetEvent

section Runs

variable {Conn : Type}

def requestedOf (k : Slot) (tr : List (BudgetEvent Conn)) : ℕ := (tr.map (BudgetEvent.requested k)).sum

def allowedOf (k : Slot) (tr : List (BudgetEvent Conn)) : ℕ := (tr.map (BudgetEvent.allowed k)).sum

namespace BudgetState

/-- How many connections hold the slot. -/
def holders (s : BudgetState Conn) (k : Slot) : ℕ := s.holds.countP fun h => h.2 = k

/-- No slot with a proof still acceptable is idle longer than the retention. -/
def Retained (C : BudgetConfig) (s : BudgetState Conn) (e : BudgetEvent Conn) : Prop :=
  ∀ now, e.clock = some now → ∀ k t, s.acceptable k = true → s.holders k = 0 → s.since k = some t →
    now - t ≤ C.ttlMs

def start (acceptable : Slot → Bool) : BudgetState Conn := ⟨∅, [], acceptable, fun _ => none⟩

end BudgetState

variable [DecidableEq Conn]

/-- A call of a connection, a sweep, or a proof that lapses. -/
inductive BudgetStep (C : BudgetConfig) : BudgetState Conn → BudgetEvent Conn → BudgetState Conn → Prop where
  | acquire {s : BudgetState Conn} {c : Conn} {k : Slot} (now : ℤ) :
      (∀ h ∈ s.holds, h.1 ≠ c) → s.acceptable k = true →
      BudgetStep C s (.acquired c k now)
        { s with entries := (s.entries.acquire C now k).1, holds := (c, k) :: s.holds }
  | take {s : BudgetState Conn} {c : Conn} {k : Slot} {n : ℕ} {b : PayloadBudget} {r : Taken} (now : ℤ) :
      (c, k) ∈ s.holds → s.entries.take C now k n = .ok (b, r) →
      BudgetStep C s (.taken c k now n r.allowed) { s with entries := b }
  | refuse {s : BudgetState Conn} {c : Conn} {k : Slot} {n : ℤ} (now : ℤ) :
      (c, k) ∈ s.holds → s.entries.take C now k n = .error .request → BudgetStep C s (.refused c k n) s
  | release {s : BudgetState Conn} {c : Conn} {k : Slot} (now : ℤ) :
      (c, k) ∈ s.holds →
      BudgetStep C s (.released c k now)
        { s with
          entries := s.entries.release C now k
          holds := s.holds.erase (c, k)
          since := Function.update s.since k (some now) }
  | ask {s : BudgetState Conn} {k : Slot} (now : ℤ) :
      BudgetStep C s (.asked k now) { s with entries := (s.entries.remaining C now k).1 }
  | sweep {s : BudgetState Conn} (now : ℤ) :
      BudgetStep C s (.swept now) { s with entries := s.entries.sweep C now }
  | lapse {s : BudgetState Conn} {k : Slot} :
      BudgetStep C s (.lapsed k) { s with acceptable := Function.update s.acceptable k false }

/-! ### What the entries say -/

/-- The entries `b` bear out who holds a slot and what was requested of it. -/
structure Kept (C : BudgetConfig) (s : BudgetState Conn) (req : Slot → ℕ) (b : PayloadBudget) : Prop where
  active : ∀ k e, b.lookup k.keyOf = some e → e.active = s.holders k
  idle : ∀ k e t, b.lookup k.keyOf = some e → s.acceptable k = true → s.holders k = 0 → s.since k = some t → e.at = t
  used : ∀ k e, b.lookup k.keyOf = some e → s.acceptable k = true ∨ 0 < s.holders k →
    e.used = min C.maxBytes (req k)
  there : ∀ k, 0 < s.holders k ∨ (s.acceptable k = true ∧ s.since k ≠ none) → ∃ e, b.lookup k.keyOf = some e
  unused : ∀ k, s.holders k = 0 → s.since k = none → req k = 0

section Kept

variable {C : BudgetConfig} {s s' : BudgetState Conn} {req : Slot → ℕ} {b : PayloadBudget} {k : Slot} {now : ℤ}

omit [DecidableEq Conn] in
lemma Kept.start {acceptable : Slot → Bool} : Kept C (BudgetState.start acceptable : BudgetState Conn) (fun _ => 0) ∅ where
  active k e h := by simp at h
  idle k e t h := by simp at h
  used k e h := by simp at h
  there k h := by simp [BudgetState.start, BudgetState.holders] at h
  unused _ _ _ := rfl

omit [DecidableEq Conn] in
/-- The slot of an entry that is dropped is not held, and its proof has lapsed or was never used. -/
lemma Kept.sweep (h : Kept C s req b) (hret : ∀ k t, s.acceptable k = true → s.holders k = 0 → s.since k = some t →
    now - t ≤ C.ttlMs) : Kept C s req (b.sweep C now) := by
  have hold : ∀ {k e}, (b.sweep C now).lookup k = some e → b.lookup k = some e :=
    fun he => (Table.lookup_keep_eq_some.mp he).1
  refine ⟨fun k e he => h.active k e (hold he), fun k e t he => h.idle k e t (hold he), fun k e he => h.used k e (hold he),
    fun k hk => ?_, h.unused⟩
  obtain ⟨e, he⟩ := h.there k hk
  refine ⟨e, Table.lookup_keep_eq_some.mpr ⟨he, ?_⟩⟩
  have hactive := h.active k e he
  by_cases hz : s.holders k = 0
  · obtain ⟨hacc, hsince⟩ := hk.resolve_left (by omega)
    obtain ⟨t, ht⟩ := Option.ne_none_iff_exists'.mp hsince
    have hat := h.idle k e t he hacc hz ht
    have hle := hret k t hacc hz ht
    simp only [Bool.not_eq_eq_eq_not, Bool.not_true, decide_eq_false_iff_not, not_and]
    omega
  · simp only [Bool.not_eq_eq_eq_not, Bool.not_true, decide_eq_false_iff_not, not_and]
    omega

omit [DecidableEq Conn] in
/-- After `entryFor` the slot has its entry. -/
lemma Kept.entryFor (h : Kept C s req b) (hret : ∀ k t, s.acceptable k = true → s.holders k = 0 → s.since k = some t →
    now - t ≤ C.ttlMs) (k : Slot) :
    Kept C s req (b.entryFor C now k).1 ∧ (b.entryFor C now k).1.lookup k.keyOf = some (b.entryFor C now k).2 := by
  unfold PayloadBudget.entryFor
  cases he : b.lookup k.keyOf with
  | some e => exact ⟨h, he⟩
  | none =>
    have hno : ¬ (0 < s.holders k ∨ (s.acceptable k = true ∧ s.since k ≠ none)) := by
      intro hk
      obtain ⟨e, he'⟩ := h.there k hk
      cases he.symm.trans he'
    have hw := h.sweep hret
    have hself : ((b.sweep C now).insert k.keyOf ⟨0, 0, now⟩).lookup k.keyOf = some ⟨0, 0, now⟩ :=
      AList.lookup_insert _
    have hother : ∀ k', k' ≠ k →
        ((b.sweep C now).insert k.keyOf ⟨0, 0, now⟩).lookup k'.keyOf = (b.sweep C now).lookup k'.keyOf :=
      fun k' hk => AList.lookup_insert_ne fun hkey => hk (Slot.keyOf_inj hkey)
    refine ⟨⟨fun k' e he' => ?_, fun k' e t he' hacc hz ht => ?_, fun k' e he' hk' => ?_, fun k' hk' => ?_, h.unused⟩, hself⟩
    · by_cases hk : k' = k
      · subst hk
        obtain rfl := Option.some.inj (hself.symm.trans he')
        show 0 = s.holders k'
        omega
      · exact hw.active k' e ((hother k' hk).symm.trans he')
    · by_cases hk : k' = k
      · subst hk
        exact absurd (.inr ⟨hacc, by simp [ht]⟩) hno
      · exact hw.idle k' e t ((hother k' hk).symm.trans he') hacc hz ht
    · by_cases hk : k' = k
      · subst hk
        obtain rfl := Option.some.inj (hself.symm.trans he')
        have hz : s.holders k' = 0 := by omega
        have hs : s.since k' = none := by
          by_contra hs
          exact hno (.inr ⟨hk'.resolve_right (by omega), hs⟩)
        rw [h.unused k' hz hs]
        simp
      · exact hw.used k' e ((hother k' hk).symm.trans he') hk'
    · by_cases hk : k' = k
      · subst hk
        exact ⟨_, hself⟩
      · obtain ⟨e, he'⟩ := hw.there k' hk'
        exact ⟨e, (hother k' hk).trans he'⟩

omit [DecidableEq Conn] in
/-- The entry of one slot is written, and nothing is told of the others. -/
lemma Kept.insert {req' : Slot → ℕ} {e' : BudgetEntry} (h : Kept C s req b) (hacc : s'.acceptable = s.acceptable)
    (hsame : ∀ k', k' ≠ k → s'.holders k' = s.holders k' ∧ s'.since k' = s.since k' ∧ req' k' = req k')
    (hactive : e'.active = s'.holders k) (hidle : ∀ t, s'.holders k = 0 → s'.since k = some t → e'.at = t)
    (hused : s.acceptable k = true ∨ 0 < s'.holders k → e'.used = min C.maxBytes (req' k))
    (hunused : s'.holders k = 0 → s'.since k = none → req' k = 0) : Kept C s' req' (b.insert k.keyOf e') := by
  have hself : (b.insert k.keyOf e').lookup k.keyOf = some e' := AList.lookup_insert _
  have hother : ∀ k', k' ≠ k → (b.insert k.keyOf e').lookup k'.keyOf = b.lookup k'.keyOf :=
    fun k' hk => AList.lookup_insert_ne fun hkey => hk (Slot.keyOf_inj hkey)
  refine ⟨fun k' e he => ?_, fun k' e t he ha hz ht => ?_, fun k' e he hk' => ?_, fun k' hk' => ?_, fun k' hz hs => ?_⟩ <;>
    by_cases hk : k' = k
  · subst hk
    obtain rfl := Option.some.inj (hself.symm.trans he)
    exact hactive
  · rw [(hsame k' hk).1]
    exact h.active k' e ((hother k' hk).symm.trans he)
  · subst hk
    obtain rfl := Option.some.inj (hself.symm.trans he)
    exact hidle t hz ht
  · obtain ⟨h₁, h₂, -⟩ := hsame k' hk
    exact h.idle k' e t ((hother k' hk).symm.trans he) (hacc ▸ ha) (h₁ ▸ hz) (h₂ ▸ ht)
  · subst hk
    obtain rfl := Option.some.inj (hself.symm.trans he)
    exact hused (hacc ▸ hk')
  · obtain ⟨h₁, -, h₃⟩ := hsame k' hk
    rw [h₃]
    exact h.used k' e ((hother k' hk).symm.trans he) (by rwa [hacc, h₁] at hk')
  · subst hk
    exact ⟨e', hself⟩
  · obtain ⟨h₁, h₂, -⟩ := hsame k' hk
    obtain ⟨e, he⟩ := h.there k' (by rwa [hacc, h₁, h₂] at hk')
    exact ⟨e, (hother k' hk).trans he⟩
  · subst hk
    exact hunused hz hs
  · obtain ⟨h₁, h₂, h₃⟩ := hsame k' hk
    rw [h₃]
    exact h.unused k' (h₁ ▸ hz) (h₂ ▸ hs)

omit [DecidableEq Conn] in
lemma Kept.usedOf (h : Kept C s req b) (hk : s.acceptable k = true ∨ 0 < s.holders k) :
    b.usedOf k = min C.maxBytes (req k) := by
  unfold PayloadBudget.usedOf
  cases he : b.lookup k.keyOf with
  | some e => exact h.used k e he hk
  | none =>
    have hno : ¬ (0 < s.holders k ∨ (s.acceptable k = true ∧ s.since k ≠ none)) := by
      intro hk'
      obtain ⟨e, he'⟩ := h.there k hk'
      cases he.symm.trans he'
    have hz : s.holders k = 0 := by omega
    have hs : s.since k = none := by
      by_contra hs
      exact hno (.inr ⟨hk.resolve_right (by omega), hs⟩)
    rw [h.unused k hz hs]
    simp

/-! ### The step -/

/-- What holds in every run: the entries are as the calls left them, and every grant was cut at the ceiling. -/
structure Budgeted (C : BudgetConfig) (tr : List (BudgetEvent Conn)) (s : BudgetState Conn) : Prop where
  kept : Kept C s (fun k => requestedOf k tr) s.entries
  allowed : ∀ k, allowedOf k tr = min C.maxBytes (requestedOf k tr)

variable {tr : List (BudgetEvent Conn)} {e : BudgetEvent Conn}

omit [DecidableEq Conn] in
lemma requestedOf_snoc : requestedOf k (tr ++ [e]) = requestedOf k tr + e.requested k := by
  simp [requestedOf]

omit [DecidableEq Conn] in
lemma allowedOf_snoc : allowedOf k (tr ++ [e]) = allowedOf k tr + e.allowed k := by
  simp [allowedOf]

omit [DecidableEq Conn] in
/-- A call that requests nothing. -/
lemma Budgeted.quiet (h : Budgeted C tr s) (hr : ∀ k, e.requested k = 0) (ha : ∀ k, e.allowed k = 0)
    (hk : Kept C s' (fun k => requestedOf k tr) s'.entries) : Budgeted C (tr ++ [e]) s' := by
  have hreq : ∀ k, requestedOf k (tr ++ [e]) = requestedOf k tr := fun k => by rw [requestedOf_snoc, hr, Nat.add_zero]
  refine ⟨?_, fun k => ?_⟩
  · simp only [hreq]
    exact hk
  · rw [allowedOf_snoc, hreq, ha, Nat.add_zero]
    exact h.allowed k

omit [DecidableEq Conn] in
lemma PayloadBudget.take_ok (hC : 0 < C.maxBytes) {n : ℤ} {b' : PayloadBudget} {r : Taken}
    (h : b.take C now k n = .ok (b', r)) :
    b' = (b.entryFor C now k).1.insert k.keyOf
        { (b.entryFor C now k).2 with used := (b.entryFor C now k).2.used + r.allowed } ∧
      r.allowed = min n.toNat (C.maxBytes - (b.entryFor C now k).2.used) := by
  unfold take at h
  split_ifs at h with _ hz
  · omega
  · obtain ⟨rfl, rfl⟩ := Prod.mk.inj (Except.ok.inj h)
    exact ⟨rfl, rfl⟩

/-- **One step keeps the budgets.** -/
lemma Budgeted.step (hC : 0 < C.maxBytes) (h : Budgeted C tr s) (hret : s.Retained C e) (hst : BudgetStep C s e s') :
    Budgeted C (tr ++ [e]) s' := by
  have hzero : C.maxBytes ≠ 0 := by omega
  cases hst with
  | @acquire c k now hfree hacc =>
    obtain ⟨hk, he⟩ := h.kept.entryFor (hret now rfl) k
    refine h.quiet (fun _ => rfl) (fun _ => rfl) ?_
    simp only [PayloadBudget.acquire, if_neg hzero]
    have hhold : ∀ k', BudgetState.holders { s with holds := (c, k) :: s.holds } k' = s.holders k' + if k = k' then 1 else 0 := by
      intro k'
      simp [BudgetState.holders, List.countP_cons]
    refine hk.insert rfl (fun k' hne => ⟨?_, rfl, rfl⟩) ?_ (fun t hz => ?_) (fun _ => ?_) fun hz => ?_
    · exact (hhold k').trans (by rw [if_neg hne.symm, Nat.add_zero])
    · refine Eq.trans ?_ (hhold k).symm
      rw [if_pos rfl]
      exact congrArg (· + 1) (hk.active k _ he)
    · have hz' := (hhold k).symm.trans hz
      rw [if_pos rfl] at hz'
      omega
    · have hused := hk.used k _ he (.inl hacc)
      exact hused
    · have hz' := (hhold k).symm.trans hz
      rw [if_pos rfl] at hz'
      omega
  | @take c k n b r now hmem ht =>
    obtain ⟨hk, he⟩ := h.kept.entryFor (hret now rfl) k
    obtain ⟨rfl, hr⟩ := PayloadBudget.take_ok hC ht
    have hpos : 0 < s.holders k := List.countP_pos_iff.mpr ⟨(c, k), hmem, by simp⟩
    have hused := hk.used k _ he (.inr hpos)
    have hreq : ∀ k', requestedOf k' (tr ++ [.taken c k now n r.allowed]) = requestedOf k' tr + if k = k' then n else 0 :=
      fun _ => requestedOf_snoc
    have hall : ∀ k', allowedOf k' (tr ++ [.taken c k now n r.allowed]) = allowedOf k' tr + if k = k' then r.allowed else 0 :=
      fun _ => allowedOf_snoc
    have hcut : min C.maxBytes (requestedOf k tr) + r.allowed = min C.maxBytes (requestedOf k tr + n) := by
      rw [hused] at hr
      omega
    refine ⟨hk.insert rfl (fun k' hne => ⟨rfl, rfl, ?_⟩) ?_ (fun t hz => ?_) (fun _ => ?_) fun hz => ?_, fun k' => ?_⟩
    · rw [hreq, if_neg hne.symm, Nat.add_zero]
    · have hactive := hk.active k _ he
      exact hactive
    · change s.holders k = 0 at hz
      omega
    · show _ + r.allowed = _
      rw [hreq, if_pos rfl, hused, hcut]
    · change s.holders k = 0 at hz
      omega
    · rw [hreq, hall, h.allowed]
      by_cases hne : k = k'
      · subst hne
        rw [if_pos rfl, if_pos rfl, hcut]
      · rw [if_neg hne, if_neg hne, Nat.add_zero, Nat.add_zero]
  | refuse _ _ _ => exact h.quiet (fun _ => rfl) (fun _ => rfl) h.kept
  | @release c k now hmem =>
    refine h.quiet (fun _ => rfl) (fun _ => rfl) ?_
    have hpos : 0 < s.holders k := List.countP_pos_iff.mpr ⟨(c, k), hmem, by simp⟩
    obtain ⟨e, he⟩ := h.kept.there k (.inl hpos)
    have hactive := h.kept.active k e he
    simp only [PayloadBudget.release, if_neg hzero, he]
    have hhold : ∀ k', (s.holds.erase (c, k)).countP (fun h => h.2 = k') = s.holders k' - if k = k' then 1 else 0 := by
      intro k'
      rw [List.countP_erase]
      simp [hmem, BudgetState.holders]
    refine h.kept.insert rfl (fun k' hne => ⟨?_, Function.update_of_ne hne _ _, rfl⟩) ?_ (fun t hz ht => ?_) (fun hk => ?_)
      fun hz hs => ?_
    · exact (hhold k').trans (by rw [if_neg hne.symm, Nat.sub_zero])
    · refine Eq.trans ?_ (hhold k).symm
      rw [if_pos rfl, ← hactive]
    · have hz' := (hhold k).symm.trans hz
      rw [if_pos rfl] at hz'
      change Function.update s.since k (some now) k = some t at ht
      rw [Function.update_self] at ht
      show (if e.active - 1 = 0 then now else e.at) = t
      rw [if_pos (by omega)]
      exact Option.some.inj ht
    · exact h.kept.used k e he (.inr hpos)
    · change Function.update s.since k (some now) k = none at hs
      simp at hs
  | @ask k now =>
    refine h.quiet (fun _ => rfl) (fun _ => rfl) ?_
    simp only [PayloadBudget.remaining, if_neg hzero]
    obtain ⟨hk, -⟩ := h.kept.entryFor (hret now rfl) k
    exact ⟨hk.active, hk.idle, hk.used, hk.there, hk.unused⟩
  | @sweep now =>
    refine h.quiet (fun _ => rfl) (fun _ => rfl) ?_
    have hk := h.kept.sweep (hret now rfl)
    exact ⟨hk.active, hk.idle, hk.used, hk.there, hk.unused⟩
  | @lapse k =>
    refine h.quiet (fun _ => rfl) (fun _ => rfl) ?_
    have hacc : ∀ k', Function.update s.acceptable k false k' = true → s.acceptable k' = true := by
      intro k' hk'
      by_cases hk : k' = k
      · subst hk
        simp at hk'
      · rwa [Function.update_of_ne hk] at hk'
    exact ⟨h.kept.active, fun k' e t he ha => h.kept.idle k' e t he (hacc k' ha),
      fun k' e he hk' => h.kept.used k' e he (hk'.imp_left (hacc k')),
      fun k' hk' => h.kept.there k' (hk'.imp_right fun hk' => ⟨hacc k' hk'.1, hk'.2⟩), h.kept.unused⟩

/-- A call for another slot leaves the budget of a slot that is still in use. -/
lemma Budgeted.usedOf_step (hC : 0 < C.maxBytes) (h : Budgeted C tr s) (hret : s.Retained C e)
    (hst : BudgetStep C s e s') (hslot : e.slot ≠ some k) (hk : s.acceptable k = true ∨ 0 < s.holders k) :
    s'.entries.usedOf k = s.entries.usedOf k := by
  have h' := h.step hC hret hst
  have hreq : e.requested k = 0 := by
    cases e with
    | taken c k' now n m => exact if_neg fun hk => hslot (congrArg some hk)
    | _ => rfl
  have hsame : s'.acceptable = s.acceptable → s'.holders k = s.holders k → s'.entries.usedOf k = s.entries.usedOf k := by
    intro hacc hhold
    rw [h'.kept.usedOf (by rwa [hacc, hhold]), h.kept.usedOf hk, requestedOf_snoc, hreq, Nat.add_zero]
  cases hst with
  | @acquire c k' now _ _ =>
    refine hsame rfl ?_
    have hne : k' ≠ k := fun h => hslot (congrArg some h)
    simp [BudgetState.holders, hne]
  | @release c k' now _ =>
    refine hsame rfl ?_
    have hne : k' ≠ k := fun h => hslot (congrArg some h)
    show (s.holds.erase (c, k')).countP (fun h => h.2 = k) = s.holders k
    rw [List.countP_erase]
    simp [BudgetState.holders, hne]
  | lapse => rfl
  | _ => exact hsame rfl rfl

/-- **The payload budget.** In every run in which no slot with a proof still acceptable is idle longer than
the retention, the bytes allowed for a slot are those requested for it up to `maxBytes`, the entry of a slot
that is held is there with its holders, and a call for one slot leaves the budget of every other. -/
theorem payload_budget (hC : 0 < C.maxBytes) {acceptable : Slot → Bool}
    (hrun : Run (Restrict (BudgetStep C) (BudgetState.Retained C)) (BudgetState.start acceptable) tr s) :
    (∀ k, allowedOf k tr = min C.maxBytes (requestedOf k tr)) ∧
    (∀ k, 0 < s.holders k → ∃ e, s.entries.lookup k.keyOf = some e ∧ e.active = s.holders k) ∧
    ∀ e s', Restrict (BudgetStep C) (BudgetState.Retained C) s e s' → ∀ k, e.slot ≠ some k →
      s.acceptable k = true ∨ 0 < s.holders k → s'.entries.usedOf k = s.entries.usedOf k := by
  have h : Budgeted C tr s := by
    refine hrun.invariant (I := Budgeted C) ⟨Kept.start, fun k => ?_⟩ fun _ _ _ _ _ hi hst => hi.step hC hst.1 hst.2
    simp [allowedOf, requestedOf]
  refine ⟨h.allowed, fun k hk => ?_, fun e s' hst k => h.usedOf_step hC hst.1 hst.2⟩
  obtain ⟨e, he⟩ := h.kept.there k (.inl hk)
  exact ⟨e, he, h.kept.active k e he⟩

end Kept

end Runs

/-- Two connections share an allowance of 40 bytes; after both released it, and a sweep within the retention,
a third gets nothing. -/
theorem payload_budget_shared :
    ∃ (C : BudgetConfig) (k : Slot) (tr : List (BudgetEvent ℕ)) (s : BudgetState ℕ),
      Run (Restrict (BudgetStep C) (BudgetState.Retained C)) (.start fun _ => true) tr s ∧
      requestedOf k tr = 65 ∧ allowedOf k tr = min 40 65 := by
  let C : BudgetConfig := ⟨40, 1000, by decide, by decide⟩
  let k : Slot := ⟨"7", "5", by decide⟩
  have hret : ∀ (s : BudgetState ℕ) (e : BudgetEvent ℕ), (∀ k, s.since k = none) → s.Retained C e :=
    fun s e h now hn k t _ _ ht => by cases (h k).symm.trans ht
  -- from the first release on only this slot is idle, since 20 or 21
  have hlate : ∀ (s : BudgetState ℕ) (e : BudgetEvent ℕ), (∀ k t, s.since k = some t → 20 ≤ t) →
      (∀ now, e.clock = some now → now ≤ 1020) → s.Retained C e := by
    intro s e h hnow now hn k t _ _ ht
    have := h k t ht
    have := hnow now hn
    show now - t ≤ 1000
    omega
  have hsince : ∀ (f : Slot → Option ℤ) (n : ℤ), 20 ≤ n → (∀ k t, f k = some t → 20 ≤ t) →
      ∀ k' t, Function.update f k (some n) k' = some t → 20 ≤ t := by
    intro f n hn hf k' t ht
    by_cases hk : k' = k
    · subst hk
      rw [Function.update_self] at ht
      cases ht
      exact hn
    · rw [Function.update_of_ne hk] at ht
      exact hf k' t ht
  have h₀ : Run (Restrict (BudgetStep C) (BudgetState.Retained C)) (.start fun _ => true) []
    (BudgetState.start fun _ => true : BudgetState ℕ) := .nil
  have h₁ := h₀.snoc (.of_step (.acquire (c := 0) (k := k) 10 (by simp [BudgetState.start]) rfl) (hret _ _ fun _ => rfl))
  have h₂ := h₁.snoc (.of_step (.acquire (c := 1) (k := k) 11 (by simp [BudgetState.start]) rfl) (hret _ _ fun _ => rfl))
  have h₃ := h₂.snoc (.of_step (.take (c := 0) (k := k) (n := 30) 12 (by simp) rfl) (hret _ _ fun _ => rfl))
  have h₄ := h₃.snoc (.of_step (.take (c := 1) (k := k) (n := 30) 13 (by simp) rfl) (hret _ _ fun _ => rfl))
  have h₅ := h₄.snoc (.of_step (.release (c := 0) (k := k) 20 (by simp)) (hret _ _ fun _ => rfl))
  have hs₅ := hsince (fun _ => none) 20 (by decide) nofun
  have h₆ := h₅.snoc (.of_step (.release (c := 1) (k := k) 21 (by decide)) (hlate _ _ hs₅ (by rintro _ ⟨⟩; decide)))
  have hs₆ := hsince _ 21 (by decide) hs₅
  have h₇ := h₆.snoc (.of_step (.sweep 500) (hlate _ _ hs₆ (by rintro _ ⟨⟩; decide)))
  have h₈ := h₇.snoc (.of_step (.acquire (c := 2) (k := k) 600 (by decide) rfl) (hlate _ _ hs₆ (by rintro _ ⟨⟩; decide)))
  have h₉ := h₈.snoc (.of_step (.take (c := 2) (k := k) (n := 5) 601 (by decide) rfl) (hlate _ _ hs₆ (by rintro _ ⟨⟩; decide)))
  exact ⟨C, k, _, _, h₉, rfl, (payload_budget (by decide) h₉).1 k⟩

end ShadeTree.Gateway
