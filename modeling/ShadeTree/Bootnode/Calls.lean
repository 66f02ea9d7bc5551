import ShadeTree.Bootnode.Registry
import ShadeTree.Lib.Run

/-!
# Calls of a registry that interleave

Announces, gossip and loads run at the same time, each a thread that is suspended at its `await`s.  A step
takes one thread from one `await` to the next.  Between the look at the tables and the write any other thread
may step, the clock may move, and the tables may be swept.
-/

namespace ShadeTree.Bootnode

open ShadeTree.Lib

/-- An element of `entries` in the file; an expiry that is no number is absent. -/
structure Stored where
  record : Option Record
  expiresAt : Option ℚ

/-- The clock, the registry, the call each thread waits in, and what it still has to load. -/
structure System (T : Type) (K : Keys) where
  clock : ℤ
  registry : Registry K
  calls : T → Option (Call K)
  todo : T → List Stored

/-- A step, with what the thread was answered. -/
inductive Event (T : Type) (K : Keys) where
  | tick
  | sweep
  | began (t : T) (source : Source) (record : Option Record) (answer : Except Refusal (Call K))
  | resumed (t : T) (answer : Except Refusal (Call K))
  | accepted (t : T) (source : Source) (c : Checked K)
  | load (t : T) (entries : List Stored)
  | dropped (t : T) (entry : Stored)

/-- The record a step enters. -/
def Event.accepts {T : Type} {K : Keys} : Event T K → Option (Source × Checked K)
  | .accepted _ source c => some (source, c)
  | _ => none

/-- The thread that took a step. -/
def Event.thread {T : Type} {K : Keys} : Event T K → Option T
  | .tick | .sweep => none
  | .began t _ _ _ | .resumed t _ | .accepted t _ _ | .load t _ | .dropped t _ => some t

section Steps

open Function (update)

variable {T : Type} [DecidableEq T] {K : Keys} (C : RegistryConfig)

/-- One step.  `announce` and `admitGossip` are called by any thread that is idle; `loadPersisted` goes through
the file one entry at a time, and hands in what did not expire. -/
inductive Step : System T K → Event T K → System T K → Prop where
  | tick {s : System T K} {clock : ℤ} : s.clock ≤ clock → Step s .tick { s with clock := clock }
  | sweep {s : System T K} : Step s .sweep { s with registry := s.registry.sweep C s.clock }
  | announce {s : System T K} {t : T} {record : Option Record} {r : Registry K}
      {answer : Except Refusal (Call K)} : s.calls t = none → s.todo t = [] →
      s.registry.begin C s.clock .live record = (r, answer) →
      Step s (.began t .live record answer)
        { s with registry := r, calls := update s.calls t answer.toOption }
  | admitGossip {s : System T K} {t : T} {record : Option Record} {r : Registry K}
      {answer : Except Refusal (Call K)} : s.calls t = none → s.todo t = [] →
      s.registry.begin C s.clock .gossip record = (r, answer) →
      Step s (.began t .gossip record answer)
        { s with registry := r, calls := update s.calls t answer.toOption }
  | load {s : System T K} {t : T} {entries : List Stored} : s.calls t = none → s.todo t = [] →
      Step s (.load t entries) { s with todo := update s.todo t entries }
  | dropped {s : System T K} {t : T} {entry : Stored} {rest : List Stored} : s.calls t = none →
      s.todo t = entry :: rest → (∀ x, entry.expiresAt = some x → x ≤ now s.clock) →
      Step s (.dropped t entry) { s with todo := update s.todo t rest }
  | restore {s : System T K} {t : T} {entry : Stored} {rest : List Stored} {x : ℚ} {r : Registry K}
      {answer : Except Refusal (Call K)} : s.calls t = none → s.todo t = entry :: rest →
      entry.expiresAt = some x → now s.clock < x →
      s.registry.begin C s.clock (.store x) entry.record = (r, answer) →
      Step s (.began t (.store x) entry.record answer)
        { s with registry := r, calls := update s.calls t answer.toOption, todo := update s.todo t rest }
  | resumed {s : System T K} {t : T} {call : Call K} {told : Answer} {r : Registry K}
      {answer : Except Refusal (Call K)} : s.calls t = some call →
      s.registry.resume C s.clock call told = some (r, answer) →
      Step s (.resumed t answer) { s with registry := r, calls := update s.calls t answer.toOption }
  | accepted {s : System T K} {t : T} {source : Source} {c : Checked K} {operator : Option String}
      {staked : Bool} : s.calls t = some ⟨source, c, .verified operator staked⟩ →
      Step s (.accepted t source c)
        { s with
          registry := s.registry.accept C s.clock source c operator staked
          calls := update s.calls t none }

/-- A bootnode that starts. -/
def System.start (clock : ℤ) : System T K := ⟨clock, .start C clock, fun _ => none, fun _ => []⟩

end Steps

/-! ### What one step does -/

section Inversion

open Function (update)

variable {T : Type} [DecidableEq T] {K : Keys} {C : RegistryConfig} {s u : System T K} {e : Event T K}

/-- **What a step does to the list.** A call that was verified writes its entry; every other step keeps
entries or drops them. -/
theorem Step.live (h : Step C s e u) :
    (∃ t source c operator staked, e = .accepted t source c ∧ u.clock = s.clock ∧
      s.calls t = some ⟨source, c, .verified operator staked⟩ ∧ u.registry.live =
        s.registry.live.insert c.onion (entryOf C s.clock source c operator staked)) ∨
    e.accepts = none ∧ ∃ p, u.registry.live = Table.keep p s.registry.live := by
  have hbegin : ∀ {source record r answer}, s.registry.begin C s.clock source record = (r, answer) →
      ∃ p, r.live = Table.keep p s.registry.live := by
    intro source record r answer h
    obtain ⟨r₁, hpruned, ⟨-, -, rfl⟩ | ⟨c, -, ⟨-, rfl⟩ | ⟨-, rfl⟩⟩⟩ := Registry.begin_cases h
    · exact hpruned.keeps
    · exact hpruned.keeps
    · rw [Registry.addNonce_live]
      exact hpruned.keeps
  have hkept : ∃ p, s.registry.live = Table.keep p s.registry.live := ⟨_, Table.keep_true.symm⟩
  cases h with
  | accepted hcall => exact .inl ⟨_, _, _, _, _, rfl, rfl, hcall, rfl⟩
  | tick hclock => exact .inr ⟨rfl, hkept⟩
  | sweep => exact .inr ⟨rfl, _, Registry.directory_eq⟩
  | announce hidle hdone hbegun => exact .inr ⟨rfl, hbegin hbegun⟩
  | admitGossip hidle hdone hbegun => exact .inr ⟨rfl, hbegin hbegun⟩
  | load hidle hdone => exact .inr ⟨rfl, hkept⟩
  | dropped hidle htodo hexpired => exact .inr ⟨rfl, hkept⟩
  | restore hidle htodo hx hlive hbegun => exact .inr ⟨rfl, hbegin hbegun⟩
  | resumed hcall hresumed =>
    refine .inr ⟨rfl, ?_⟩
    obtain ⟨-, ⟨-, -, rfl⟩ | ⟨-, -, rfl⟩ | ⟨-, -, -, rfl⟩⟩ := Registry.resume_cases hresumed
    · exact hkept
    · exact hkept
    · rwa [Registry.addNonce_live]

/-- What holds of the listed entries and of the one that is written holds after the step. -/
lemma Step.forall_entry {P : Entry K → Prop} (h : Step C s e u)
    (hold : ∀ onion entry, s.registry.live.lookup onion = some entry → P entry)
    (hnew : ∀ t source c operator staked, e = .accepted t source c →
      P (entryOf C s.clock source c operator staked)) :
    ∀ onion entry, u.registry.live.lookup onion = some entry → P entry := by
  intro onion entry hlookup
  rcases h.live with ⟨t, source, c, operator, staked, he, -, -, hlive⟩ | ⟨-, p, hlive⟩
  · rw [hlive] at hlookup
    by_cases honion : onion = c.onion
    · subst honion
      rw [AList.lookup_insert] at hlookup
      obtain rfl := Option.some.inj hlookup
      exact hnew t source c operator staked he
    · rw [AList.lookup_insert_ne honion] at hlookup
      exact hold onion entry hlookup
  · rw [hlive] at hlookup
    exact hold onion entry (Table.lookup_keep_eq_some.mp hlookup).1

/-- A call that one stretch of code left waiting, with what it did to the registry. -/
inductive Origin (C : RegistryConfig) (s : System T K) (t : T) (call : Call K) (r : Registry K) :
    Event T K → Prop where
  | waits {e : Event T K} : s.calls t = some call → e.thread ≠ some t → Origin C s t call r e
  | began {record : Option Record} {r₁ : Registry K} :
      Registry.Pruned C s.clock s.registry r₁ → Registry.Passes C s.clock call.source record r₁ call.checked →
      (call.stage = .operatorSig ∧ r = r₁ ∨
        call.stage = .verified none false ∧ r = r₁.addNonce s.clock call.source call.checked) →
      Origin C s t call r (.began t call.source record (.ok call))
  | resumed {old : Call K} : s.calls t = some old → old.source = call.source → old.checked = call.checked →
      (∀ operator staked, old.stage ≠ .verified operator staked) →
      ((∃ operator, call.stage = .stakeRead operator) ∧ r = s.registry ∨
        (∃ operator staked, call.stage = .verified operator staked) ∧
          r = s.registry.addNonce s.clock call.source call.checked) →
      Origin C s t call r (.resumed t (.ok call))

omit [DecidableEq T] in
lemma Origin.waited {t : T} {call : Call K} {r : Registry K} (h : Origin C s t call r e) :
    (∃ old, s.calls t = some old) ∨ ∃ source record answer, e = .began t source record answer := by
  cases h with
  | waits hold hthread => exact .inl ⟨call, hold⟩
  | began hpruned hpasses hr => exact .inr ⟨_, _, _, rfl⟩
  | resumed hold hsource hchecked hstage hr => exact .inl ⟨_, hold⟩

/-- **Where a call comes from.** It waited before, or its thread left it waiting. -/
theorem Step.origin (h : Step C s e u) {t : T} {call : Call K} (hcall : u.calls t = some call) :
    Origin C s t call u.registry e := by
  have hbegin : ∀ {t' source record r answer}, s.registry.begin C s.clock source record = (r, answer) →
      update s.calls t' answer.toOption t = some call →
      Origin C s t call r (.began t' source record answer) := by
    intro t' source record r answer h hcall
    by_cases ht : t = t'
    · subst ht
      rw [Function.update_self] at hcall
      obtain ⟨r₁, hpruned, ⟨why, rfl, -⟩ | ⟨c, hpasses, ⟨rfl, hr⟩ | ⟨rfl, hr⟩⟩⟩ := Registry.begin_cases h
      · cases hcall
      · obtain rfl := Option.some.inj hcall
        exact .began hpruned hpasses (.inl ⟨rfl, hr⟩)
      · obtain rfl := Option.some.inj hcall
        exact .began hpruned hpasses (.inr ⟨rfl, hr⟩)
    · rw [Function.update_of_ne ht] at hcall
      exact .waits hcall fun heq => ht (Option.some.inj heq).symm
  have hidle : ∀ {t' : T} {e' : Event T K}, e'.thread = some t' → s.calls t' = none →
      s.calls t = some call → Origin C s t call s.registry e' := by
    intro t' e' he hnone hcall
    refine .waits hcall fun heq => ?_
    obtain rfl := Option.some.inj (he.symm.trans heq)
    rw [hnone] at hcall
    cases hcall
  cases h with
  | tick hclock => exact .waits hcall nofun
  | sweep => exact .waits hcall nofun
  | announce hnone hdone hbegun => exact hbegin hbegun hcall
  | admitGossip hnone hdone hbegun => exact hbegin hbegun hcall
  | load hnone hdone => exact hidle rfl hnone hcall
  | dropped hnone htodo hexpired => exact hidle rfl hnone hcall
  | restore hnone htodo hx hlive hbegun => exact hbegin hbegun hcall
  | @accepted t' source c operator staked hwrites =>
    change update s.calls t' none t = some call at hcall
    by_cases ht : t = t'
    · subst ht
      rw [Function.update_self] at hcall
      cases hcall
    · rw [Function.update_of_ne ht] at hcall
      exact .waits hcall fun heq => ht (Option.some.inj heq).symm
  | @resumed t' old told r answer hold hresumed =>
    change update s.calls t' answer.toOption t = some call at hcall
    by_cases ht : t = t'
    · subst ht
      rw [Function.update_self] at hcall
      obtain ⟨hstage, ⟨why, rfl, -⟩ | ⟨operator, rfl, hr⟩ | ⟨operator, staked, rfl, hr⟩⟩ :=
        Registry.resume_cases hresumed
      · cases hcall
      · obtain rfl := Option.some.inj hcall
        exact .resumed hold rfl rfl hstage (.inl ⟨⟨operator, rfl⟩, hr⟩)
      · obtain rfl := Option.some.inj hcall
        exact .resumed hold rfl rfl hstage (.inr ⟨⟨operator, staked, rfl⟩, hr⟩)
    · rw [Function.update_of_ne ht] at hcall
      exact .waits hcall fun heq => ht (Option.some.inj heq).symm

omit [DecidableEq T] in
/-- A call that did not move waited before. -/
lemma Origin.of_thread_ne {t : T} {call : Call K} {r : Registry K} (h : Origin C s t call r e)
    (hthread : e.thread ≠ some t) : s.calls t = some call := by
  cases h with
  | waits hold _ => exact hold
  | began hpruned hpasses hr => exact absurd rfl hthread
  | resumed hold hsource hchecked hstage hr => exact absurd rfl hthread

/-- What a step does to the replay cache. -/
lemma Step.ages (h : Step C s e u) : Registry.Ages C s.clock s.registry u.registry := by
  have hbegin : ∀ {source record r answer}, s.registry.begin C s.clock source record = (r, answer) →
      Registry.Ages C s.clock s.registry r := by
    intro source record r answer h
    obtain ⟨r₁, hpruned, ⟨-, -, rfl⟩ | ⟨c, -, ⟨-, rfl⟩ | ⟨-, rfl⟩⟩⟩ := Registry.begin_cases h
    · exact hpruned.ages
    · exact hpruned.ages
    · exact hpruned.ages.addNonce
  cases h with
  | tick hclock => exact .of_eq rfl
  | sweep => exact Registry.Pruned.ages (.inr ⟨rfl, rfl⟩)
  | announce hidle hdone hbegun => exact hbegin hbegun
  | admitGossip hidle hdone hbegun => exact hbegin hbegun
  | load hidle hdone => exact .of_eq rfl
  | dropped hidle htodo hexpired => exact .of_eq rfl
  | restore hidle htodo hx hlive hbegun => exact hbegin hbegun
  | accepted hcall => exact .of_eq rfl
  | resumed hcall hresumed =>
    obtain ⟨-, ⟨-, -, rfl⟩ | ⟨-, -, rfl⟩ | ⟨-, -, -, rfl⟩⟩ := Registry.resume_cases hresumed
    · exact .of_eq rfl
    · exact .of_eq rfl
    · exact (Registry.Ages.of_eq rfl).addNonce

lemma Step.clock_le (h : Step C s e u) : s.clock ≤ u.clock := by
  cases h with
  | tick hclock => exact hclock
  | _ => exact le_rfl

end Inversion

/-! ### Schedules -/

/-- What can be done next. -/
inductive Command (T : Type) where
  | tick (clock : ℤ)
  | sweep
  | announce (t : T) (record : Option Record)
  | admitGossip (t : T) (record : Option Record)
  | load (t : T) (entries : List Stored)
  | next (t : T)
  | tell (t : T) (told : Answer)
  | write (t : T)

section Schedules

open Function (update)

variable {T : Type} [DecidableEq T] {K : Keys} (C : RegistryConfig)

/-- A thread begins a call. -/
def System.launch (t : T) (source : Source) (record : Option Record) (s : System T K) :
    Event T K × System T K :=
  let begun := s.registry.begin C s.clock source record
  (.began t source record begun.2,
    { s with registry := begun.1, calls := update s.calls t begun.2.toOption })

/-- The step of a command, if its thread can take it. -/
def System.exec (s : System T K) : Command T → Option (Event T K × System T K)
  | .tick clock => if s.clock ≤ clock then some (.tick, { s with clock := clock }) else none
  | .sweep => some (.sweep, { s with registry := s.registry.sweep C s.clock })
  | .announce t record =>
    if (s.calls t).isNone ∧ (s.todo t).isEmpty then some (s.launch C t .live record) else none
  | .admitGossip t record =>
    if (s.calls t).isNone ∧ (s.todo t).isEmpty then some (s.launch C t .gossip record) else none
  | .load t entries =>
    if (s.calls t).isNone ∧ (s.todo t).isEmpty then
      some (.load t entries, { s with todo := update s.todo t entries })
    else none
  | .next t =>
    match s.calls t, s.todo t with
    | none, ⟨record, some x⟩ :: rest =>
      if now s.clock < x then
        let launched := s.launch C t (.store x) record
        some (launched.1, { launched.2 with todo := update s.todo t rest })
      else some (.dropped t ⟨record, some x⟩, { s with todo := update s.todo t rest })
    | none, ⟨record, none⟩ :: rest =>
      some (.dropped t ⟨record, none⟩, { s with todo := update s.todo t rest })
    | _, _ => none
  | .tell t told =>
    (s.calls t).bind fun call => (s.registry.resume C s.clock call told).map fun resumed =>
      (.resumed t resumed.2,
        { s with registry := resumed.1, calls := update s.calls t resumed.2.toOption })
  | .write t =>
    match s.calls t with
    | some ⟨source, c, .verified operator staked⟩ =>
      some (.accepted t source c,
        { s with
          registry := s.registry.accept C s.clock source c operator staked
          calls := update s.calls t none })
    | _ => none

/-- A schedule, as long as its steps are allowed. -/
def System.execAll (allowed : System T K → Event T K → Prop) [∀ s e, Decidable (allowed s e)]
    (s : System T K) : List (Command T) → Option (List (Event T K) × System T K)
  | [] => some ([], s)
  | command :: commands =>
    (s.exec C command).bind fun stepped =>
      if allowed s stepped.1 then
        (stepped.2.execAll allowed commands).map fun rest => (stepped.1 :: rest.1, rest.2)
      else none

variable {C} {s u : System T K} {e : Event T K} {command : Command T}

lemma System.exec_step (h : s.exec C command = some (e, u)) : Step C s e u := by
  cases command with
  | tick clock =>
    obtain ⟨hclock, h⟩ := Option.ite_none_right_eq_some.mp h
    obtain ⟨rfl, rfl⟩ := Prod.mk.inj (Option.some.inj h)
    exact .tick hclock
  | sweep =>
    obtain ⟨rfl, rfl⟩ := Prod.mk.inj (Option.some.inj h)
    exact .sweep
  | announce t record =>
    obtain ⟨⟨hidle, hdone⟩, h⟩ := Option.ite_none_right_eq_some.mp h
    obtain ⟨rfl, rfl⟩ := Prod.mk.inj (Option.some.inj h)
    exact .announce (Option.isNone_iff_eq_none.mp hidle) (List.isEmpty_iff.mp hdone) rfl
  | admitGossip t record =>
    obtain ⟨⟨hidle, hdone⟩, h⟩ := Option.ite_none_right_eq_some.mp h
    obtain ⟨rfl, rfl⟩ := Prod.mk.inj (Option.some.inj h)
    exact .admitGossip (Option.isNone_iff_eq_none.mp hidle) (List.isEmpty_iff.mp hdone) rfl
  | load t entries =>
    obtain ⟨⟨hidle, hdone⟩, h⟩ := Option.ite_none_right_eq_some.mp h
    obtain ⟨rfl, rfl⟩ := Prod.mk.inj (Option.some.inj h)
    exact .load (Option.isNone_iff_eq_none.mp hidle) (List.isEmpty_iff.mp hdone)
  | next t =>
    unfold System.exec at h
    dsimp only at h
    split at h
    · next record x rest hidle htodo =>
      split at h
      · next hlive =>
        obtain ⟨rfl, rfl⟩ := Prod.mk.inj (Option.some.inj h)
        exact .restore hidle (show s.todo t = (⟨record, some x⟩ : Stored) :: rest from htodo) rfl hlive rfl
      · next hexpired =>
        obtain ⟨rfl, rfl⟩ := Prod.mk.inj (Option.some.inj h)
        refine .dropped hidle htodo fun y hy => ?_
        obtain rfl := Option.some.inj hy
        exact not_lt.mp hexpired
    · next record rest hidle htodo =>
      obtain ⟨rfl, rfl⟩ := Prod.mk.inj (Option.some.inj h)
      exact .dropped hidle htodo nofun
    · cases h
  | tell t told =>
    obtain ⟨call, hcall, h⟩ := Option.bind_eq_some_iff.mp h
    obtain ⟨resumed, hresumed, h⟩ := Option.map_eq_some_iff.mp h
    obtain ⟨rfl, rfl⟩ := Prod.mk.inj h
    exact .resumed hcall hresumed
  | write t =>
    unfold System.exec at h
    dsimp only at h
    split at h
    · next hcall =>
      obtain ⟨rfl, rfl⟩ := Prod.mk.inj (Option.some.inj h)
      exact .accepted hcall
    · cases h

/-- A schedule that goes through is a run. -/
theorem System.execAll_run {allowed : System T K → Event T K → Prop} [∀ s e, Decidable (allowed s e)]
    {commands : List (Command T)} {tr : List (Event T K)} (h : s.execAll C allowed commands = some (tr, u)) :
    Run (Restrict (Step C) allowed) s tr u := by
  induction commands generalizing s tr with
  | nil =>
    obtain ⟨rfl, rfl⟩ := Prod.mk.inj (Option.some.inj h)
    exact .nil
  | cons command commands ih =>
    obtain ⟨⟨e, v⟩, hexec, h⟩ := Option.bind_eq_some_iff.mp h
    obtain ⟨hallowed, h⟩ := Option.ite_none_right_eq_some.mp h
    obtain ⟨⟨tr, w⟩, hrest, h⟩ := Option.map_eq_some_iff.mp h
    obtain ⟨rfl, rfl⟩ := Prod.mk.inj h
    exact Run.cons ⟨hallowed, System.exec_step hexec⟩ (ih hrest)

/-- What holds at the end of a schedule holds at the end of a run. -/
lemma System.exists_run (C : RegistryConfig) (s : System T K) (allowed : System T K → Event T K → Prop)
    [∀ s e, Decidable (allowed s e)] (commands : List (Command T))
    (P : List (Event T K) → System T K → Prop) [∀ tr u, Decidable (P tr u)]
    (h : ((s.execAll C allowed commands).any fun run => P run.1 run.2) = true) :
    ∃ tr u, Run (Restrict (Step C) allowed) s tr u ∧ P tr u := by
  obtain ⟨⟨tr, u⟩, hrun, hP⟩ := (Option.any_eq_true _ _).mp h
  exact ⟨tr, u, System.execAll_run hrun, of_decide_eq_true hP⟩

end Schedules

/-! ### Two gateways to schedule -/

/-- The schemes on the records below: every signature holds, and the checksums are those of the two keys. -/
def signedKeys : Keys where
  checksum key := if key = List.replicate 32 0 then [205, 14] else [109, 239]
  verifyOnionControl _ _ := true
  verifyCapsSig _ _ _ := true
  canonicalCaps caps := some caps

/-- The address of the key that is all zeros. -/
def zeroOnion : String := "aaaaaaaaaaaaaaaaaaaaaaaaaaaaaaaaaaaaaaaaaaaaaaaaaaam2dqd.onion"

/-- The address of the key whose first byte is eight and whose others are zeros. -/
def eightOnion : String := "baaaaaaaaaaaaaaaaaaaaaaaaaaaaaaaaaaaaaaaaaaaaaaaaaag33yd.onion"

/-- An announce without capabilities or an operator. -/
def plainRecord (onion : String) (ts : ℚ) (nonce : String) : Record where
  v := some ANNOUNCE_VERSION
  onion := some onion
  weight := some 100
  ts := some ts
  nonce := nonce
  onionSig := some "sig"
  caps := none
  capsSig := none
  operator := none
  operatorSig := none

/-- The defaults, open to everyone, with room for the given number of gateways. -/
def openConfig (maxEntries : ℕ) : RegistryConfig where
  ttlSec := 900
  minReannounceSec := 5
  maxEntries := maxEntries
  announceRate := 2 * maxEntries / 300
  announceBurst := max 100 (maxEntries / 10 : ℕ)
  requireStake := false
  readsStake := false

end ShadeTree.Bootnode
