import Mathlib
import ShadeTree.Bootnode.Gossip

/-!
# Pulling from peers (`makeFederation` in `bootnode/federation.mjs`)

A bootnode asks a peer for its directory, takes the onions in it as hints, fetches the stored announce of each, one
after the other, and hands it to `admitGossip`.  What a peer answers is anything, and pulls of several peers run beside
the announces of gateways.  Each thread that pulls takes the steps of the registry, so what holds of its runs holds
here too.
-/

namespace ShadeTree.Bootnode

open ShadeTree.Lib
open Function (update)

/-- The loop over the directory: what stands there as `onion` of each gateway, if it is a string, and the onions so
far. -/
def hints (maxPullPerPeer : ℕ) : List (Option String) → List String → List String
  | [], onions => onions
  | onion :: gateways, onions =>
    let onions := match onion with
      | some onion => if onion = "" then onions else onions ++ [onion]
      | none => onions
    if maxPullPerPeer ≤ onions.length then onions else hints maxPullPerPeer gateways onions

/-- A pull of one peer: the onions it listed, those to fetch, and the counts. -/
structure Pull where
  onions : List String
  todo : List String
  merged : ℕ
  skipped : ℕ
  rejected : ℕ
  errors : ℕ

def Pull.start (maxPullPerPeer : ℕ) (gateways : List (Option String)) : Pull :=
  ⟨hints maxPullPerPeer gateways [], hints maxPullPerPeer gateways [], 0, 0, 0, 0⟩

/-- What `admitGossip` returned without merging is counted; what is held as new already is `ok`. -/
def Pull.answered {K : Keys} (p : Pull) : Except Refusal (Call K) → Pull
  | .ok _ => p
  | .error .freshExisting => { p with skipped := p.skipped + 1 }
  | .error _ => { p with rejected := p.rejected + 1 }

/-- A bootnode with the pulls of its threads. -/
structure Federation (T : Type) (K : Keys) where
  system : System T K
  pulls : T → Option Pull

/-- A step: of a thread that does not pull, of the directory or of a record that is fetched, of a call that goes on, or
the end of a pull. -/
inductive FedEvent (T : Type) (K : Keys) where
  | own (e : Event T K)
  | unreachable (t : T)
  | listed (t : T) (gateways : List (Option String))
  | failed (t : T) (onion : String)
  | fetched (t : T) (onion : String) (record : Option Record) (answer : Except Refusal (Call K))
  | resumed (t : T) (answer : Except Refusal (Call K))
  | accepted (t : T) (source : Source) (c : Checked K)
  | ended (t : T) (p : Pull)

/-- The step of the registry. -/
def FedEvent.step {T : Type} {K : Keys} : FedEvent T K → Option (Event T K)
  | .own e => some e
  | .fetched t _ record answer => some (.began t .gossip record answer)
  | .resumed t answer => some (.resumed t answer)
  | .accepted t source c => some (.accepted t source c)
  | _ => none

section Steps

variable {T : Type} [DecidableEq T] {K : Keys} (C : RegistryConfig) (maxPullPerPeer : ℕ)

/-- One step.  A thread that pulls waits for each call of `admitGossip` before it fetches the next record. -/
inductive FedStep : Federation T K → FedEvent T K → Federation T K → Prop where
  | own {f : Federation T K} {e : Event T K} {u : System T K} : (∀ t, e.thread = some t → f.pulls t = none) →
      Step C f.system e u → FedStep f (.own e) { f with system := u }
  | unreachable {f : Federation T K} {t : T} : f.pulls t = none → FedStep f (.unreachable t) f
  | listed {f : Federation T K} {t : T} {gateways : List (Option String)} : f.pulls t = none →
      f.system.calls t = none → f.system.todo t = [] →
      FedStep f (.listed t gateways) { f with pulls := update f.pulls t (some (.start maxPullPerPeer gateways)) }
  | failed {f : Federation T K} {t : T} {p : Pull} {onion : String} {rest : List String} : f.pulls t = some p →
      p.todo = onion :: rest → f.system.calls t = none →
      FedStep f (.failed t onion)
        { f with pulls := update f.pulls t (some { p with todo := rest, errors := p.errors + 1 }) }
  | fetched {f : Federation T K} {t : T} {p : Pull} {onion : String} {rest : List String} {record : Option Record}
      {answer : Except Refusal (Call K)} {u : System T K} : f.pulls t = some p → p.todo = onion :: rest →
      f.system.calls t = none → Step C f.system (.began t .gossip record answer) u →
      FedStep f (.fetched t onion record answer)
        { system := u, pulls := update f.pulls t (some (({ p with todo := rest } : Pull).answered answer)) }
  | resumed {f : Federation T K} {t : T} {p : Pull} {answer : Except Refusal (Call K)} {u : System T K} :
      f.pulls t = some p → Step C f.system (.resumed t answer) u →
      FedStep f (.resumed t answer) { system := u, pulls := update f.pulls t (some (p.answered answer)) }
  | accepted {f : Federation T K} {t : T} {p : Pull} {source : Source} {c : Checked K} {u : System T K} :
      f.pulls t = some p → Step C f.system (.accepted t source c) u →
      FedStep f (.accepted t source c)
        { system := u, pulls := update f.pulls t (some { p with merged := p.merged + 1 }) }
  | ended {f : Federation T K} {t : T} {p : Pull} : f.pulls t = some p → p.todo = [] → f.system.calls t = none →
      FedStep f (.ended t p) { f with pulls := update f.pulls t none }

def Federation.start (clock : ℤ) : Federation T K := ⟨.start C clock, fun _ => none⟩

end Steps

/-! ### The hints -/

/-- A pull fetches no more than the bound, or one. -/
lemma hints_length (maxPullPerPeer : ℕ) (gateways : List (Option String)) {onions : List String}
    (h : onions.length < max 1 maxPullPerPeer) :
    (hints maxPullPerPeer gateways onions).length ≤ max 1 maxPullPerPeer := by
  induction gateways generalizing onions with
  | nil => exact h.le
  | cons onion gateways ih =>
    unfold hints
    dsimp only
    generalize hnext : (match onion with
      | some onion => if onion = "" then onions else onions ++ [onion]
      | none => onions) = next
    have hlen : next.length ≤ onions.length + 1 := by
      rw [← hnext]
      cases onion with
      | none => exact Nat.le_succ _
      | some onion =>
        dsimp only
        split
        · exact Nat.le_succ _
        · rw [List.length_append, List.length_singleton]
    split
    · omega
    · next hroom => exact ih (by omega)

/-- The hints are the first onions of the directory. -/
lemma hints_eq {maxPullPerPeer : ℕ} (gateways : List (Option String)) {onions : List String}
    (h : onions.length < maxPullPerPeer) : hints maxPullPerPeer gateways onions =
      onions ++ ((gateways.filterMap id).filter fun onion => onion ≠ "").take (maxPullPerPeer - onions.length) := by
  induction gateways generalizing onions with
  | nil => simp [hints]
  | cons onion gateways ih =>
    unfold hints
    cases onion with
    | none => simpa [not_le.mpr h] using ih h
    | some onion =>
      by_cases hempty : onion = ""
      · simpa [hempty, not_le.mpr h] using ih h
      · have hcount : maxPullPerPeer - onions.length = maxPullPerPeer - (onions.length + 1) + 1 := by omega
        by_cases hfull : maxPullPerPeer ≤ onions.length + 1
        · have hone : maxPullPerPeer - (onions.length + 1) = 0 := by omega
          simp [hempty, hfull, hcount, hone]
        · have hnext := @ih (onions ++ [onion]) (by rw [List.length_append, List.length_singleton]; omega)
          simpa [hempty, hfull, hcount] using hnext

/-! ### What a pull comes to -/

section Runs

variable {T : Type} [DecidableEq T] {K : Keys} {C : RegistryConfig} {maxPullPerPeer : ℕ} {clock : ℤ}
  {f g : Federation T K} {e : FedEvent T K} {tr : List (FedEvent T K)} {t : T} {p : Pull}

/-- A record was fetched for the onion, or the fetch failed. -/
def Handled (tr : List (FedEvent T K)) (t : T) (onion : String) : Prop :=
  .failed t onion ∈ tr ∨ ∃ record answer, .fetched t onion record answer ∈ tr

/-- The onions of a pull are the hints of a directory. -/
def Hinted (maxPullPerPeer : ℕ) (tr : List (FedEvent T K)) (t : T) (p : Pull) : Prop :=
  ∃ gateways, .listed t gateways ∈ tr ∧ p.onions = hints maxPullPerPeer gateways []

/-- A pull that is over. -/
structure Complete (maxPullPerPeer : ℕ) (tr : List (FedEvent T K)) (t : T) (p : Pull) : Prop where
  counted : p.onions.length = p.merged + p.skipped + p.rejected + p.errors
  bounded : p.onions.length ≤ max 1 maxPullPerPeer
  hinted : Hinted maxPullPerPeer tr t p
  handled : ∀ onion ∈ p.onions, Handled tr t onion

/-- The onion whose record waits for `admitGossip` is counted in none of the counts yet. -/
def waiting (f : Federation T K) (t : T) : ℕ := if (f.system.calls t).isSome then 1 else 0

/-- What holds of the pulls under way, and of those that are over. -/
structure Pulling (maxPullPerPeer : ℕ) (tr : List (FedEvent T K)) (f : Federation T K) : Prop where
  counted : ∀ t p, f.pulls t = some p →
    p.onions.length = p.merged + p.skipped + p.rejected + p.errors + p.todo.length + waiting f t
  hinted : ∀ t p, f.pulls t = some p → Hinted maxPullPerPeer tr t p
  handled : ∀ t p, f.pulls t = some p → ∀ onion ∈ p.onions, onion ∈ p.todo ∨ Handled tr t onion
  ended : ∀ t p, .ended t p ∈ tr → Complete maxPullPerPeer tr t p

omit [DecidableEq T] in
lemma Handled.append {onion : String} (h : Handled tr t onion) : Handled (tr ++ [e]) t onion :=
  h.imp (List.mem_append_left _) fun ⟨record, answer, hmem⟩ => ⟨record, answer, List.mem_append_left _ hmem⟩

omit [DecidableEq T] in
lemma Hinted.append (h : Hinted maxPullPerPeer tr t p) : Hinted maxPullPerPeer (tr ++ [e]) t p := by
  obtain ⟨gateways, hmem, honions⟩ := h
  exact ⟨gateways, List.mem_append_left _ hmem, honions⟩

omit [DecidableEq T] in
lemma Complete.append (h : Complete maxPullPerPeer tr t p) : Complete maxPullPerPeer (tr ++ [e]) t p :=
  ⟨h.counted, h.bounded, h.hinted.append, fun onion honion => (h.handled onion honion).append⟩

/-- A step leaves the calls of the other threads. -/
lemma Step.calls_of_ne {s u : System T K} {e : Event T K} (h : Step C s e u) (ht : e.thread ≠ some t) :
    u.calls t = s.calls t := by
  have hne : ∀ {t' : T}, some t' ≠ some t → t ≠ t' := fun h heq => h (congrArg some heq.symm)
  cases h with
  | tick hclock => rfl
  | sweep => rfl
  | load hidle hdone => rfl
  | dropped hidle htodo hexpired => rfl
  | announce hidle hdone hbegun => exact Function.update_of_ne (hne ht) ..
  | admitGossip hidle hdone hbegun => exact Function.update_of_ne (hne ht) ..
  | restore hidle htodo hx hlive hbegun => exact Function.update_of_ne (hne ht) ..
  | resumed hcall hresumed => exact Function.update_of_ne (hne ht) ..
  | accepted hcall => exact Function.update_of_ne (hne ht) ..

/-- The call of the thread that took a step. -/
lemma Step.calls_of_answer {s u : System T K} {source : Source} {record : Option Record}
    {answer : Except Refusal (Call K)} (h : Step C s (.began t source record answer) u) :
    u.calls t = answer.toOption := by
  cases h with
  | announce hidle hdone hbegun => exact Function.update_self ..
  | admitGossip hidle hdone hbegun => exact Function.update_self ..
  | restore hidle htodo hx hlive hbegun => exact Function.update_self ..

lemma Step.calls_of_resumed {s u : System T K} {answer : Except Refusal (Call K)}
    (h : Step C s (.resumed t answer) u) : (s.calls t).isSome = true ∧ u.calls t = answer.toOption := by
  cases h with
  | resumed hcall hresumed => exact ⟨by rw [hcall]; rfl, Function.update_self ..⟩

lemma Step.calls_of_accepted {s u : System T K} {source : Source} {c : Checked K}
    (h : Step C s (.accepted t source c) u) : (s.calls t).isSome = true ∧ u.calls t = none := by
  cases h with
  | accepted hcall => exact ⟨by rw [hcall]; rfl, Function.update_self ..⟩

/-- The answer of a call is counted when it is no call. -/
lemma Pull.answered_counts (p : Pull) (answer : Except Refusal (Call K)) :
    (p.answered answer).onions = p.onions ∧ (p.answered answer).todo = p.todo ∧
      (p.answered answer).merged + (p.answered answer).skipped + (p.answered answer).rejected +
        (p.answered answer).errors + (if answer.toOption.isSome then 1 else 0) =
        p.merged + p.skipped + p.rejected + p.errors + 1 := by
  unfold Pull.answered
  split
  · exact ⟨rfl, rfl, rfl⟩
  · refine ⟨rfl, rfl, ?_⟩
    simp only [Except.toOption, Option.isSome_none, Bool.false_eq_true, if_false]
    omega
  · refine ⟨rfl, rfl, ?_⟩
    simp only [Except.toOption, Option.isSome_none, Bool.false_eq_true, if_false]
    omega

omit [DecidableEq T] in
/-- A step that changes no pull. -/
lemma Pulling.same (h : Pulling maxPullPerPeer tr f) (hpulls : g.pulls = f.pulls)
    (hcalls : ∀ t p, f.pulls t = some p → g.system.calls t = f.system.calls t) (hend : ∀ t p, e ≠ .ended t p) :
    Pulling maxPullPerPeer (tr ++ [e]) g := by
  constructor
  case counted =>
    intro t p hp
    rw [hpulls] at hp
    unfold waiting
    rw [hcalls t p hp]
    exact h.counted t p hp
  case hinted =>
    intro t p hp
    exact (h.hinted t p (hpulls ▸ hp)).append
  case handled =>
    intro t p hp onion honion
    exact (h.handled t p (hpulls ▸ hp) onion honion).imp_right Handled.append
  case ended =>
    intro t p hmem
    rcases List.mem_append.mp hmem with hmem | hmem
    · exact (h.ended t p hmem).append
    · exact absurd (List.mem_singleton.mp hmem).symm (hend t p)

/-- A step that changes the pull of one thread. -/
lemma Pulling.changed (h : Pulling maxPullPerPeer tr f) {q : Option Pull} (hpulls : g.pulls = update f.pulls t q)
    (hcalls : ∀ t', t' ≠ t → g.system.calls t' = f.system.calls t')
    (hcounted : ∀ p, q = some p →
      p.onions.length = p.merged + p.skipped + p.rejected + p.errors + p.todo.length + waiting g t)
    (hhinted : ∀ p, q = some p → Hinted maxPullPerPeer (tr ++ [e]) t p)
    (hhandled : ∀ p, q = some p → ∀ onion ∈ p.onions, onion ∈ p.todo ∨ Handled (tr ++ [e]) t onion)
    (hend : ∀ t p, e = .ended t p → Complete maxPullPerPeer (tr ++ [e]) t p) :
    Pulling maxPullPerPeer (tr ++ [e]) g := by
  have hcases : ∀ t' p, g.pulls t' = some p → t' = t ∧ q = some p ∨ t' ≠ t ∧ f.pulls t' = some p := by
    intro t' p hp
    rw [hpulls] at hp
    by_cases ht : t' = t
    · subst ht
      rw [Function.update_self] at hp
      exact .inl ⟨rfl, hp⟩
    · rw [Function.update_of_ne ht] at hp
      exact .inr ⟨ht, hp⟩
  constructor
  case counted =>
    intro t' p hp
    rcases hcases t' p hp with ⟨rfl, hq⟩ | ⟨hne, hp⟩
    · exact hcounted p hq
    · unfold waiting
      rw [hcalls t' hne]
      exact h.counted t' p hp
  case hinted =>
    intro t' p hp
    rcases hcases t' p hp with ⟨rfl, hq⟩ | ⟨-, hp⟩
    · exact hhinted p hq
    · exact (h.hinted t' p hp).append
  case handled =>
    intro t' p hp onion honion
    rcases hcases t' p hp with ⟨rfl, hq⟩ | ⟨-, hp⟩
    · exact hhandled p hq onion honion
    · exact (h.handled t' p hp onion honion).imp_right Handled.append
  case ended =>
    intro t' p hmem
    rcases List.mem_append.mp hmem with hmem | hmem
    · exact (h.ended t' p hmem).append
    · exact hend t' p (List.mem_singleton.mp hmem).symm

omit [DecidableEq T] in
/-- An onion of a pull after its first one was taken. -/
lemma Pulling.handled_rest (h : Pulling maxPullPerPeer tr f) (hp : f.pulls t = some p) {onion : String}
    {rest : List String} (htodo : p.todo = onion :: rest) (honion : Handled (tr ++ [e]) t onion) :
    ∀ o ∈ p.onions, o ∈ rest ∨ Handled (tr ++ [e]) t o := by
  intro o ho
  rcases h.handled t p hp o ho with hmem | hdone
  · rw [htodo] at hmem
    rcases List.mem_cons.mp hmem with rfl | hmem
    · exact .inr honion
    · exact .inl hmem
  · exact .inr hdone.append

lemma Pulling.step (h : Pulling maxPullPerPeer tr f) (hst : FedStep C maxPullPerPeer f e g) :
    Pulling maxPullPerPeer (tr ++ [e]) g := by
  cases hst with
  | own hidle hst =>
    refine h.same rfl (fun t p hp => hst.calls_of_ne fun ht => ?_) (by simp)
    rw [hidle t ht] at hp
    cases hp
  | unreachable hidle => exact h.same rfl (fun _ _ _ => rfl) (by simp)
  | @listed t gateways hidle hcall htodo =>
    refine h.changed rfl (fun _ _ => rfl) ?_ ?_ ?_ (by simp)
    · rintro p ⟨⟩
      have hwait : waiting { f with pulls := update f.pulls t (some (.start maxPullPerPeer gateways)) } t = 0 := by
        unfold waiting
        rw [hcall]
        rfl
      rw [hwait]
      show (hints maxPullPerPeer gateways []).length = 0 + 0 + 0 + 0 + (hints maxPullPerPeer gateways []).length + 0
      omega
    · rintro p ⟨⟩
      exact ⟨gateways, List.mem_append_right _ (List.mem_singleton_self _), rfl⟩
    · rintro p ⟨⟩ onion honion
      exact .inl honion
  | @failed t p onion rest hp htodo hcall =>
    have hcount := h.counted t p hp
    have hwait : waiting f t = 0 := by
      unfold waiting
      rw [hcall]
      rfl
    rw [hwait, htodo, List.length_cons] at hcount
    refine h.changed rfl (fun _ _ => rfl) ?_ ?_ ?_ (by simp)
    · rintro q ⟨⟩
      show p.onions.length = p.merged + p.skipped + p.rejected + (p.errors + 1) + rest.length + waiting f t
      rw [hwait]
      omega
    · rintro q ⟨⟩
      exact (h.hinted t p hp).append
    · rintro q ⟨⟩
      exact h.handled_rest hp htodo (.inl (List.mem_append_right _ (List.mem_singleton_self _)))
  | @fetched t p onion rest record answer u hp htodo hcall hst =>
    have hcount := h.counted t p hp
    have hwait : waiting f t = 0 := by
      unfold waiting
      rw [hcall]
      rfl
    obtain ⟨honions, hrest, hcounts⟩ := ({ p with todo := rest } : Pull).answered_counts answer
    rw [hwait, htodo, List.length_cons] at hcount
    refine h.changed rfl (fun t' ht' => hst.calls_of_ne fun heq => ht' (Option.some.inj heq).symm) ?_ ?_ ?_ (by simp)
    · rintro q ⟨⟩
      unfold waiting
      rw [hst.calls_of_answer, honions, hrest]
      dsimp only at hcounts ⊢
      omega
    · rintro q ⟨⟩
      obtain ⟨gateways, hmem, hgateways⟩ := (h.hinted t p hp).append
      exact ⟨gateways, hmem, honions.trans hgateways⟩
    · rintro q ⟨⟩
      rw [honions, hrest]
      exact h.handled_rest hp htodo
        (.inr ⟨record, answer, List.mem_append_right _ (List.mem_singleton_self _)⟩)
  | @resumed t p answer u hp hst =>
    have hcount := h.counted t p hp
    obtain ⟨hwaits, hcall⟩ := hst.calls_of_resumed
    have hwait : waiting f t = 1 := if_pos hwaits
    obtain ⟨honions, hrest, hcounts⟩ := p.answered_counts answer
    rw [hwait] at hcount
    refine h.changed rfl (fun t' ht' => hst.calls_of_ne fun heq => ht' (Option.some.inj heq).symm) ?_ ?_ ?_ (by simp)
    · rintro q ⟨⟩
      unfold waiting
      rw [hcall, honions, hrest]
      omega
    · rintro q ⟨⟩
      obtain ⟨gateways, hmem, hgateways⟩ := (h.hinted t p hp).append
      exact ⟨gateways, hmem, honions.trans hgateways⟩
    · rintro q ⟨⟩ onion honion
      rw [honions] at honion
      rw [hrest]
      exact (h.handled t p hp onion honion).imp_right Handled.append
  | @accepted t p source c u hp hst =>
    have hcount := h.counted t p hp
    obtain ⟨hwaits, hcall⟩ := hst.calls_of_accepted
    have hwait : waiting f t = 1 := if_pos hwaits
    rw [hwait] at hcount
    refine h.changed rfl (fun t' ht' => hst.calls_of_ne fun heq => ht' (Option.some.inj heq).symm) ?_ ?_ ?_ (by simp)
    · rintro q ⟨⟩
      unfold waiting
      rw [hcall]
      dsimp only
      simp only [Option.isSome_none, Bool.false_eq_true, if_false]
      omega
    · rintro q ⟨⟩
      exact (h.hinted t p hp).append
    · rintro q ⟨⟩ onion honion
      exact (h.handled t p hp onion honion).imp_right Handled.append
  | @ended t p hp htodo hcall =>
    refine h.changed rfl (fun _ _ => rfl) (by simp) (by simp) (by simp) ?_
    rintro t' p' ⟨⟩
    have hcount := h.counted t p hp
    have hwait : waiting f t = 0 := by
      unfold waiting
      rw [hcall]
      rfl
    rw [hwait, htodo, List.length_nil] at hcount
    have hhinted := h.hinted t p hp
    refine ⟨by omega, ?_, hhinted.append, fun onion honion => ?_⟩
    · obtain ⟨gateways, -, honions⟩ := hhinted
      rw [honions]
      exact hints_length maxPullPerPeer gateways (by rw [List.length_nil]; omega)
    · rcases h.handled t p hp onion honion with hmem | hdone
      · rw [htodo] at hmem
        cases hmem
      · exact hdone.append

lemma pulling_of_run (hrun : Run (FedStep C maxPullPerPeer) (Federation.start C clock) tr f) :
    Pulling maxPullPerPeer tr f := by
  refine hrun.invariant ?_ fun tr f e g _ h hst => h.step hst
  constructor
  case ended =>
    intro t p hmem
    cases hmem
  all_goals
    intro t p hp
    cases hp

/-- **What pulls do is what the registry does.** A run with pulls is a run of the registry, whatever its steps
meet. -/
theorem registry_run {D : System T K → Event T K → Prop}
    (hrun : Run (Restrict (FedStep C maxPullPerPeer) fun f e => ∀ e', e.step = some e' → D f.system e')
      (Federation.start C clock) tr f) :
    Run (Restrict (Step C) D) (System.start C clock) (tr.filterMap FedEvent.step) f.system := by
  induction hrun with
  | nil => exact .nil
  | @snoc tr f g e _ hst ih =>
    obtain ⟨hcond, hst⟩ := hst
    have hone : ∀ {e'}, e.step = some e' → Step C f.system e' g.system →
        Run (Restrict (Step C) D) (System.start C clock) ((tr ++ [e]).filterMap FedEvent.step) g.system := by
      intro e' he' hst'
      rw [List.filterMap_append, List.filterMap_cons_some he', List.filterMap_nil]
      exact ih.snoc ⟨hcond e' he', hst'⟩
    have hnone : e.step = none → g.system = f.system →
        Run (Restrict (Step C) D) (System.start C clock) ((tr ++ [e]).filterMap FedEvent.step) g.system := by
      intro he hsame
      rw [List.filterMap_append, List.filterMap_cons_none he, List.filterMap_nil, List.append_nil, hsame]
      exact ih
    cases hst with
    | own hidle hst => exact hone rfl hst
    | unreachable hidle => exact hnone rfl rfl
    | listed hidle hcall htodo => exact hnone rfl rfl
    | failed hp htodo hcall => exact hnone rfl rfl
    | fetched hp htodo hcall hst => exact hone rfl hst
    | resumed hp hst => exact hone rfl hst
    | accepted hp hst => exact hone rfl hst
    | ended hp htodo hcall => exact hnone rfl rfl

end Runs

/-! ### A pull of one gateway -/

/-- What the registry of a new bootnode makes of the record that a peer hands over. -/
def peerCall : Registry signedKeys × Except Refusal (Call signedKeys) :=
  (System.start (openConfig 10) 0 : System Unit signedKeys).registry.begin (openConfig 10) 0 .gossip
    (some (plainRecord zeroOnion 60 "n"))

lemma peerCall_verified : ∃ c, peerCall.2 = .ok ⟨.gossip, c, .verified none false⟩ := by
  have hok : peerCall.2.isOk = true := by decide +kernel
  have hunasked : (peerCall.2.toOption.bind fun call =>
      peerCall.1.resume (openConfig 10) 0 call (.operatorSig true)).isNone = true := by decide +kernel
  have hbegin : (System.start (openConfig 10) 0 : System Unit signedKeys).registry.begin (openConfig 10) 0 .gossip
      (some (plainRecord zeroOnion 60 "n")) = (peerCall.1, peerCall.2) := rfl
  obtain ⟨r₁, -, ⟨why, hrefused, -⟩ | ⟨c, -, ⟨hasked, -⟩ | ⟨hverified, -⟩⟩⟩ := Registry.begin_cases hbegin
  · rw [hrefused] at hok
    cases hok
  · rw [hasked] at hunasked
    simp [Except.toOption, Registry.resume, openConfig] at hunasked
  · exact ⟨c, hverified⟩

end ShadeTree.Bootnode
