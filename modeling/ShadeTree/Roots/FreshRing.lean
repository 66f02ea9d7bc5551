import Mathlib.Algebra.Order.Ring.Int
import Mathlib.Data.List.Basic
import Mathlib.Tactic.Common

/-!
# The freshness ring and the last-known-good cache (`lib/root-provider.mjs`)

`makeFreshRootRing` keeps the current root and the roots it superseded within `freshnessMs`;
`withCache` bridges a failed read with the current root of the last successful snapshot.  Times are
milliseconds of the provider's clock.

What the two are for is stated over the *history* of a provider, the roots it observed with their times,
newest first: a root may be served while it is current, and for `freshnessMs` after the end of the last
period in which it was (`Servable`).
-/

namespace ShadeTree.Roots

/-! ### The ring -/

/-- `maxRoots` (`none` when it is not finite) and `freshnessMs`. -/
structure RingConfig where
  maxRoots : Option ℕ
  freshnessMs : ℤ

structure Retired where
  root : String
  retiredAt : ℤ
  deriving DecidableEq, Repr

/-- The variables of `makeFreshRootRing`; `retired` is newest first. -/
structure Ring where
  initialized : Bool
  current : Option String
  retired : List Retired
  deriving Repr

/-- `newRootRing()`. -/
def Ring.new : Ring := ⟨false, none, []⟩

/-- `if (reset) pushRoot = newRootRing()`. -/
def Ring.resetIf (reset : Bool) (r : Ring) : Ring := if reset then Ring.new else r

/-- `root == null || root === "" ? null : String(root)`. -/
def normRoot (root : Option String) : Option String := if root = some "" then none else root

/-- The loop that fills `roots` from the retired entries. -/
def collect (maxRoots : Option ℕ) : List String → List Retired → List String
  | roots, [] => roots
  | roots, entry :: rest =>
    if maxRoots.any fun n => decide (n ≤ roots.length) then roots
    else collect maxRoots (if entry.root ∈ roots then roots else roots ++ [entry.root]) rest

/-- `retired` with the current root put in front, if there is one. -/
def Ring.retire (now : ℤ) (r : Ring) : List Retired :=
  match r.current with
  | some c => ⟨c, now⟩ :: r.retired
  | none => r.retired

/-- `pushRoot(root)` at the time `now`. -/
def Ring.push (cfg : RingConfig) (now : ℤ) (root : Option String) (r : Ring) : Ring × List String :=
  let next := normRoot root
  let superseded := r.initialized && next != r.current
  let current := if r.initialized && !superseded then r.current else next
  let retired := if superseded then r.retire now else r.retired
  let kept := retired.filter fun entry => decide (now - entry.retiredAt ≤ cfg.freshnessMs)
  (⟨true, current, kept⟩, collect cfg.maxRoots current.toList kept)

/-- Pushes the roots in turn; the answer is that of the last push, if any. -/
def Ring.pushEach (cfg : RingConfig) (now : ℤ) : Ring → List (Option String) → Ring × Option (List String)
  | r, [] => (r, none)
  | r, root :: rest =>
    let p := r.push cfg now root
    match Ring.pushEach cfg now p.1 rest with
    | (r', none) => (r', some p.2)
    | (r', some roots) => (r', some roots)

/-! ### The cache -/

/-- A snapshot of the accepted roots, with whatever else its provider reports. -/
structure Snapshot (ι : Type) where
  roots : List String
  info : ι

/-- The last known good snapshot. -/
structure Cached (ι : Type) where
  snapshot : Snapshot ι
  fetchedAt : ℤ

/-- What `currentRoots()` returns: a snapshot, marked `stale` with the error of the read if it comes from
the cache. -/
structure Answer (ι : Type) where
  snapshot : Snapshot ι
  stale : Bool
  error : Option String

/-- `withCache(fetchFresh, { maxStaleMs })`: one call that ends at `now`. -/
def withCache {ι : Type} (maxStaleMs now : ℤ) (lkg : Option (Cached ι)) :
    Except String (Snapshot ι) → Option (Cached ι) × Except String (Answer ι)
  | .ok fresh => (some ⟨fresh, now⟩, .ok ⟨fresh, false, none⟩)
  | .error msg =>
    match lkg with
    | none => (none, .error msg)
    | some l =>
      if now - l.fetchedAt ≤ maxStaleMs then
        -- only the snapshot's first root bridges the outage
        (some l, .ok ⟨⟨l.snapshot.roots.take 1, l.snapshot.info⟩, true, some msg⟩)
      else (some l, .error msg)

/-! ### Histories -/

/-- The roots a provider observed, with the times, newest first. -/
abbrev History := List (ℤ × Option String)

/-- The root observed last. -/
def History.current (h : History) : Option String := h.head?.bind Prod.snd

/-- When the last period in which `r` was current ended; `none` while it is current, and if it never
was. -/
def History.supersededAt (r : String) : History → Option ℤ
  | [] => none
  | (t, x) :: h =>
    if x = some r then none
    else
      match h with
      | [] => none
      | (_, y) :: _ => if y = some r then some t else History.supersededAt r h

/-- The root may be served at `now`: it is current, or was superseded at most `freshnessMs` ago. -/
def Servable (freshnessMs now : ℤ) (h : History) (r : String) : Prop :=
  h.current = some r ∨ ∃ t, h.supersededAt r = some t ∧ now - t ≤ freshnessMs

instance (freshnessMs now : ℤ) (h : History) (r : String) : Decidable (Servable freshnessMs now h r) :=
  decidable_of_iff (h.current = some r ∨
    (h.supersededAt r).any (fun t => decide (now - t ≤ freshnessMs)) = true) (by
      simp [Servable, Option.any_eq_true])

/-- **What an answer at `now` must satisfy**: every root in it may be served, and a stale answer serves
only the root that is current. -/
structure AnswerOK {ι : Type} (freshnessMs now : ℤ) (h : History) (a : Answer ι) : Prop where
  servable : ∀ r ∈ a.snapshot.roots, Servable freshnessMs now h r
  stale : a.stale = true → ∀ r ∈ a.snapshot.roots, h.current = some r

section History

variable {h : History} {r : String} {t now : ℤ} {x y : Option String}

lemma History.current_cons : History.current ((t, x) :: h) = x := by
  simp [History.current]

/-- Observing something else right after `r` ends its period. -/
lemma History.supersededAt_of_head (hx : x ≠ some r) :
    History.supersededAt r ((now, x) :: (t, some r) :: h) = some now := by
  simp [History.supersededAt, hx]

lemma History.supersededAt_cons (hx : x ≠ some r) (hy : y ≠ some r) :
    History.supersededAt r ((now, x) :: (t, y) :: h) = History.supersededAt r ((t, y) :: h) := by
  rw [History.supersededAt, if_neg hx]
  simp only [if_neg hy]

end History

/-! ### The ring tracks the history -/

/-- The ring holds the current root of the history, and each retired entry is a root whose last period
ended at its `retiredAt` or later. -/
structure Ring.Tracks (r : Ring) (now : ℤ) (h : History) : Prop where
  initialized : r.initialized = true
  current : ∃ t rest, h = (t, r.current) :: rest
  past : ∀ e ∈ r.retired, e.retiredAt ≤ now
  retired : ∀ e ∈ r.retired, r.current = some e.root ∨
    ∃ t, h.supersededAt e.root = some t ∧ e.retiredAt ≤ t

section Tracks

variable {cfg : RingConfig} {now now' : ℤ} {h : History} {r : Ring}

lemma Ring.Tracks.later (ht : r.Tracks now h) (hle : now ≤ now') : r.Tracks now' h :=
  ⟨ht.initialized, ht.current, fun e he => (ht.past e he).trans hle, ht.retired⟩

lemma Ring.Tracks.head (ht : r.Tracks now h) : h.current = r.current := by
  obtain ⟨t, rest, rfl⟩ := ht.current
  exact History.current_cons

/-- A retired entry stays one when the next root is observed. -/
lemma Ring.Tracks.entry (ht : r.Tracks now h) {e : Retired} (he : e ∈ r.retired) (next : Option String) :
    next = some e.root ∨ ∃ t, History.supersededAt e.root ((now, next) :: h) = some t ∧ e.retiredAt ≤ t := by
  by_cases hn : next = some e.root
  · exact .inl hn
  · obtain ⟨t₀, rest, rfl⟩ := ht.current
    by_cases hc : r.current = some e.root
    · right
      rw [hc]
      exact ⟨now, History.supersededAt_of_head hn, ht.past e he⟩
    · obtain ⟨t, hs, hle⟩ := (ht.retired e he).resolve_left hc
      right
      rw [History.supersededAt_cons hn hc]
      exact ⟨t, hs, hle⟩

lemma Ring.resetIf_cases (reset : Bool) (r : Ring) : r.resetIf reset = Ring.new ∨ r.resetIf reset = r := by
  cases reset
  · exact .inr rfl
  · exact .inl rfl

/-- The first push of a new ring. -/
lemma Ring.push_new (root : Option String) :
    ((Ring.new.push cfg now root).1).Tracks now ((now, normRoot root) :: h) := by
  refine ⟨rfl, ⟨now, h, ?_⟩, ?_, ?_⟩
  all_goals simp [Ring.push, Ring.new]

/-- **One push** keeps the ring on the history. -/
lemma Ring.Tracks.push (ht : r.Tracks now h) (root : Option String) :
    ((r.push cfg now root).1).Tracks now ((now, normRoot root) :: h) := by
  have hinit := ht.initialized
  by_cases hsame : normRoot root = r.current
  · have hpush : (r.push cfg now root).1 =
        ⟨true, r.current, r.retired.filter fun e => decide (now - e.retiredAt ≤ cfg.freshnessMs)⟩ := by
      simp [Ring.push, hinit, hsame]
    rw [hpush, hsame]
    refine ⟨rfl, ⟨now, h, rfl⟩, fun e he => ht.past e (List.mem_of_mem_filter he), fun e he => ?_⟩
    exact ht.entry (List.mem_of_mem_filter he) r.current
  · -- the root that was current is superseded now
    have hentry : ∀ e ∈ r.retire now, e.retiredAt ≤ now ∧ (normRoot root = some e.root ∨
        ∃ t, History.supersededAt e.root ((now, normRoot root) :: h) = some t ∧ e.retiredAt ≤ t) := by
      intro e he
      unfold Ring.retire at he
      cases hc : r.current with
      | none =>
        rw [hc] at he
        exact ⟨ht.past e he, ht.entry he _⟩
      | some c =>
        rw [hc] at he
        rcases List.mem_cons.mp he with rfl | he
        · refine ⟨le_rfl, .inr ⟨now, ?_, le_rfl⟩⟩
          obtain ⟨t₀, rest, rfl⟩ := ht.current
          rw [hc]
          exact History.supersededAt_of_head (by rw [hc] at hsame; exact hsame)
        · exact ⟨ht.past e he, ht.entry he _⟩
    have hpush : (r.push cfg now root).1 = ⟨true, normRoot root,
        (r.retire now).filter fun e => decide (now - e.retiredAt ≤ cfg.freshnessMs)⟩ := by
      simp [Ring.push, hinit, hsame]
    rw [hpush]
    exact ⟨rfl, ⟨now, h, rfl⟩, fun e he => (hentry e (List.mem_of_mem_filter he)).1,
      fun e he => (hentry e (List.mem_of_mem_filter he)).2⟩

lemma mem_collect {maxRoots : Option ℕ} {x : String} {es : List Retired} {roots : List String}
    (hx : x ∈ collect maxRoots roots es) : x ∈ roots ∨ ∃ e ∈ es, e.root = x := by
  induction es generalizing roots with
  | nil => exact .inl hx
  | cons e es ih =>
    rw [collect] at hx
    split at hx
    · exact .inl hx
    · rcases ih hx with h₁ | ⟨e', he', hr⟩
      · split at h₁
        · exact .inl h₁
        · rcases List.mem_append.mp h₁ with h₂ | h₂
          · exact .inl h₂
          · exact .inr ⟨e, by simp, (List.mem_singleton.mp h₂).symm⟩
      · exact .inr ⟨e', by simp [he'], hr⟩

lemma collect_prefix (maxRoots : Option ℕ) (es : List Retired) (roots : List String) :
    roots <+: collect maxRoots roots es := by
  induction es generalizing roots with
  | nil => exact List.prefix_rfl
  | cons e es ih =>
    rw [collect]
    split
    · exact List.prefix_rfl
    · refine List.IsPrefix.trans ?_ (ih _)
      split
      · exact List.prefix_rfl
      · exact List.prefix_append _ _

lemma Ring.push_roots (root : Option String) :
    (r.push cfg now root).2 =
      collect cfg.maxRoots (r.push cfg now root).1.current.toList (r.push cfg now root).1.retired := rfl

lemma Ring.push_retired_fresh (root : Option String) {e : Retired}
    (he : e ∈ (r.push cfg now root).1.retired) : now - e.retiredAt ≤ cfg.freshnessMs := by
  have := List.of_mem_filter he
  simpa using this

/-- **The roots a push answers** may all be served, and if a root is current the answer starts with it. -/
lemma Ring.push_servable {root : Option String}
    (ht : ((r.push cfg now root).1).Tracks now ((now, normRoot root) :: h)) :
    (∀ x ∈ (r.push cfg now root).2, Servable cfg.freshnessMs now ((now, normRoot root) :: h) x) ∧
      ∀ c, normRoot root = some c → (r.push cfg now root).2.take 1 = [c] := by
  have hcur := ht.head
  rw [History.current_cons] at hcur
  constructor
  · intro x hx
    rw [Ring.push_roots] at hx
    rcases mem_collect hx with h₁ | ⟨e, he, rfl⟩
    · left
      rw [History.current_cons, hcur]
      exact Option.mem_toList.mp h₁
    · rcases ht.retired e he with h₁ | ⟨t, hs, hle⟩
      · left
        rw [History.current_cons, hcur, h₁]
      · right
        have hfresh := Ring.push_retired_fresh root he
        exact ⟨t, hs, by omega⟩
  · intro c hc
    obtain ⟨rest, hrest⟩ := collect_prefix cfg.maxRoots (r.push cfg now root).1.retired
      (r.push cfg now root).1.current.toList
    rw [Ring.push_roots, ← hrest, ← hcur, hc]
    simp

/-- The history after the roots `pushes` were observed at `now`. -/
def History.observe (h : History) (now : ℤ) (pushes : List (Option String)) : History :=
  pushes.foldl (fun h root => (now, normRoot root) :: h) h

/-- After its first push, the rest of the pushes leads to the same ring. -/
lemma Ring.pushEach_rest {root : Option String} {rest : List (Option String)} {r' : Ring}
    {roots : Option (List String)} (h : r.pushEach cfg now (root :: rest) = (r', roots)) :
    ∃ roots', (r.push cfg now root).1.pushEach cfg now rest = (r', roots') := by
  cases hq : Ring.pushEach cfg now (r.push cfg now root).1 rest with
  | mk r₂ roots₂ =>
    rw [Ring.pushEach, hq] at h
    refine ⟨roots₂, Prod.ext ?_ rfl⟩
    cases roots₂ <;> exact (Prod.mk.inj h).1

/-- **Several pushes**, from a new ring or one on the history. -/
lemma Ring.pushEach_spec (hr : r = Ring.new ∨ r.Tracks now h) {pushes : List (Option String)}
    {r' : Ring} {roots : Option (List String)} (hp : r.pushEach cfg now pushes = (r', roots))
    (hne : pushes ≠ []) :
    r'.Tracks now (h.observe now pushes) ∧ ∃ rs, roots = some rs ∧
      (∀ x ∈ rs, Servable cfg.freshnessMs now (h.observe now pushes) x) ∧
      ∀ c, (h.observe now pushes).current = some c → rs.take 1 = [c] := by
  induction pushes generalizing r h r' roots with
  | nil => exact absurd rfl hne
  | cons root rest ih =>
    have ht : ((r.push cfg now root).1).Tracks now ((now, normRoot root) :: h) := by
      rcases hr with rfl | hr
      · exact Ring.push_new root
      · exact hr.push root
    rw [Ring.pushEach] at hp
    cases rest with
    | nil =>
      simp only [Ring.pushEach, Prod.mk.injEq] at hp
      obtain ⟨rfl, rfl⟩ := hp
      obtain ⟨h₁, h₂⟩ := Ring.push_servable ht
      refine ⟨ht, _, rfl, h₁, fun c hc => h₂ c ?_⟩
      simpa [History.observe, History.current_cons] using hc
    | cons root' rest' =>
      cases hq : Ring.pushEach cfg now (r.push cfg now root).1 (root' :: rest') with
      | mk r'' roots'' =>
        obtain ⟨ht', rs, rfl, h₁, h₂⟩ := ih (.inr ht) hq (by simp)
        rw [hq] at hp
        obtain ⟨rfl, rfl⟩ := Prod.mk.inj hp
        exact ⟨ht', rs, rfl, h₁, h₂⟩

end Tracks

end ShadeTree.Roots
