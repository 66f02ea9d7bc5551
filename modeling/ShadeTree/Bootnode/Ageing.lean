import Mathlib.Tactic.Linarith
import ShadeTree.Bootnode.Calls

/-!
# Entries that age out

The three ways into the registry set an expiry each from something else: the clock, the time in the record, or
the number in the file.  An entry goes within a TTL and a skew of the time it was last accepted, and of the
time its record was signed, if that number is near both times.  The registry itself does not compare them.
-/

namespace ShadeTree.Bootnode

open ShadeTree.Lib

variable {T : Type} {K : Keys}

/-- The entry expires within a TTL and a skew of its last acceptance, and of the time in its record. -/
def AgesOut (C : RegistryConfig) (e : Entry K) : Prop :=
  e.expiresAt ≤ e.lastAt + C.ttlSec + DEFAULT_ANNOUNCE_SKEW ∧
    e.expiresAt ≤ e.checked.ts + C.ttlSec + DEFAULT_ANNOUNCE_SKEW

/-- What the source of an entry has to be for that: the checks of an announce are over while its time is in the
skew, a time passed on is not ahead of the clock by more than the skew, and an expiry in the file is one that
an announce with this time could have now. -/
def TimelyAt (C : RegistryConfig) (clock : ℤ) (c : Checked K) : Source → Prop
  | .live => now clock ≤ c.ts + DEFAULT_ANNOUNCE_SKEW
  | .store x => x ≤ now clock + C.ttlSec + DEFAULT_ANNOUNCE_SKEW ∧ x ≤ c.ts + C.ttlSec + DEFAULT_ANNOUNCE_SKEW
  | .gossip => c.ts ≤ now clock + DEFAULT_ANNOUNCE_SKEW

/-- **The condition.** -/
def Timely (C : RegistryConfig) (s : System T K) (e : Event T K) : Prop :=
  match e.accepts with
  | none => True
  | some (source, c) => TimelyAt C s.clock c source

instance (C : RegistryConfig) (clock : ℤ) (c : Checked K) : (source : Source) →
    Decidable (TimelyAt C clock c source)
  | .live => inferInstanceAs (Decidable (_ ≤ _))
  | .store _ => inferInstanceAs (Decidable (_ ∧ _))
  | .gossip => inferInstanceAs (Decidable (_ ≤ _))

instance (C : RegistryConfig) (s : System T K) (e : Event T K) : Decidable (Timely C s e) := by
  unfold Timely
  split <;> infer_instance

instance (C : RegistryConfig) (e : Entry K) : Decidable (AgesOut C e) :=
  inferInstanceAs (Decidable (_ ∧ _))

variable {C : RegistryConfig} {clock : ℤ}

lemma agesOut_entryOf {source : Source} {c : Checked K} (operator : Option String) (staked : Bool) :
    AgesOut C (entryOf C clock source c operator staked) ↔ TimelyAt C clock c source := by
  have hskew : (0 : ℚ) ≤ DEFAULT_ANNOUNCE_SKEW := by
    unfold DEFAULT_ANNOUNCE_SKEW
    norm_num
  unfold AgesOut TimelyAt entryOf
  cases source with
  | live =>
    refine ⟨fun ⟨_, hts⟩ => by linarith, fun hnow => ⟨by linarith, by linarith⟩⟩
  | store x => exact Iff.rfl
  | gossip =>
    refine ⟨fun ⟨hlast, _⟩ => by linarith, fun hts => ⟨by linarith, by linarith⟩⟩

variable [DecidableEq T] {s u : System T K} {e : Event T K} {tr : List (Event T K)}

/-- Every entry ages out. -/
def AllAgeOut (C : RegistryConfig) (s : System T K) : Prop :=
  ∀ onion entry, s.registry.live.lookup onion = some entry → AgesOut C entry

/-- The next step keeps every entry ageing exactly if it is timely. -/
lemma AllAgeOut.step_iff (h : AllAgeOut C s) (hst : Step C s e u) : AllAgeOut C u ↔ Timely C s e := by
  constructor
  · intro hall
    rcases hst.live with ⟨t, source, c, operator, staked, rfl, -, -, hlive⟩ | ⟨hnone, -⟩
    · refine (agesOut_entryOf operator staked).mp (hall c.onion _ ?_)
      rw [hlive]
      exact AList.lookup_insert _
    · unfold Timely
      rw [hnone]
      trivial
  · intro htimely
    refine hst.forall_entry h ?_
    rintro t source c operator staked rfl
    exact (agesOut_entryOf operator staked).mpr htimely

/-- An onion that is not accepted again keeps its entry or loses it. -/
lemma lookup_of_silent {onion : String} {entry : Entry K} (h : Run (Step C) s tr u)
    (hsilent : ∀ e ∈ tr, ∀ source c, e.accepts = some (source, c) → c.onion ≠ onion)
    (hlookup : u.registry.live.lookup onion = some entry) : s.registry.live.lookup onion = some entry := by
  induction h with
  | nil => exact hlookup
  | @snoc tr v u e hrun hst ih =>
    refine ih (fun e' he' => hsilent e' (List.mem_append_left _ he')) ?_
    rcases hst.live with ⟨t, source, c, operator, staked, rfl, -, -, hlive⟩ | ⟨-, p, hlive⟩
    · have hne := hsilent _ (List.mem_append_right _ List.mem_cons_self) source c rfl
      rwa [hlive, AList.lookup_insert_ne hne.symm] at hlookup
    · rw [hlive] at hlookup
      exact (Table.lookup_keep_eq_some.mp hlookup).1

/-- **Ageing.** As long as every record is timely when it enters, every entry is of an age; a gateway that is
silent from some state on is in no directory later than a TTL and a skew after it was last accepted and after
its record was signed.  A record that is not timely makes an entry that does not age out. -/
theorem entries_age_out_iff_timely (C : RegistryConfig) (clock : ℤ)
    (h : Run (Restrict (Step C) (Timely C)) (System.start C clock) tr s) :
    AllAgeOut C s ∧
    (∀ tr' u onion entry, Run (Step C) s tr' u →
      (∀ e ∈ tr', ∀ source c, e.accepts = some (source, c) → c.onion ≠ onion) →
      (u.registry.directory C u.clock).lookup onion = some entry →
      s.registry.live.lookup onion = some entry ∧
      now u.clock < entry.lastAt + C.ttlSec + DEFAULT_ANNOUNCE_SKEW ∧
      now u.clock < entry.checked.ts + C.ttlSec + DEFAULT_ANNOUNCE_SKEW) ∧
    ∀ e u, Step C s e u → (AllAgeOut C u ↔ Timely C s e) := by
  have hall : AllAgeOut C s := by
    refine h.invariant_state (I := AllAgeOut C) (fun onion entry hlookup => ?_) ?_
    · cases hlookup
    · exact fun t e u hages hst => (hages.step_iff hst.2).mpr hst.1
  refine ⟨hall, fun tr' u onion entry hrun hsilent hlookup => ?_, fun e u hst => hall.step_iff hst⟩
  rw [Registry.directory_eq] at hlookup
  obtain ⟨hlisted, hlive⟩ := Table.lookup_keep_eq_some.mp hlookup
  have hold := lookup_of_silent hrun hsilent hlisted
  obtain ⟨hlast, hts⟩ := hall onion entry hold
  have hlive : now u.clock < entry.expiresAt := of_decide_eq_true hlive
  exact ⟨hold, lt_of_lt_of_le hlive hlast, lt_of_lt_of_le hlive hts⟩

/-- A gateway that announces once is served for a TTL. -/
theorem entries_age_out_iff_timely_announced : ∃ tr, ∃ s : System ℕ signedKeys,
    Run (Restrict (Step (openConfig 10)) (Timely (openConfig 10))) (System.start (openConfig 10) 0) tr s ∧
    (s.registry.live.lookup zeroOnion).isSome ∧ AllAgeOut (openConfig 10) s := by
  obtain ⟨tr, s, hrun, hlisted⟩ := System.exists_run (openConfig 10)
    (System.start (openConfig 10) 0 : System ℕ signedKeys) (Timely (openConfig 10))
    [.announce 0 (some (plainRecord zeroOnion 60 "n")), .write 0]
    (fun _ s => (s.registry.live.lookup zeroOnion).isSome) (by decide +kernel)
  exact ⟨tr, s, hrun, hlisted, (entries_age_out_iff_timely (openConfig 10) 0 hrun).1⟩

/-- A file whose entry expires in a million seconds, and a record passed on whose time is a million seconds
ahead, make entries that outlive the bounds. -/
theorem entries_need_not_age_out : ∃ tr, ∃ s : System ℕ signedKeys,
    Run (Step (openConfig 10)) (System.start (openConfig 10) 0) tr s ∧
    (∃ entry, s.registry.live.lookup zeroOnion = some entry ∧ ¬ AgesOut (openConfig 10) entry) ∧
    ∃ entry, s.registry.live.lookup eightOnion = some entry ∧ ¬ AgesOut (openConfig 10) entry := by
  obtain ⟨tr, s, hrun, hstored, hgossip⟩ := System.exists_run (openConfig 10)
    (System.start (openConfig 10) 0 : System ℕ signedKeys) (fun _ _ => True)
    [.load 0 [⟨some (plainRecord zeroOnion 0 "n"), some 1000000⟩], .next 0, .write 0,
      .admitGossip 1 (some (plainRecord eightOnion 1000000 "n")), .write 1]
    (fun _ s => ((s.registry.live.lookup zeroOnion).any fun e => ¬ AgesOut (openConfig 10) e) = true ∧
      ((s.registry.live.lookup eightOnion).any fun e => ¬ AgesOut (openConfig 10) e) = true)
    (by decide +kernel)
  obtain ⟨stored, hlookup, hold⟩ := (Option.any_eq_true _ _).mp hstored
  obtain ⟨passed, hlookup', hold'⟩ := (Option.any_eq_true _ _).mp hgossip
  exact ⟨tr, s, hrun.forget, ⟨stored, hlookup, of_decide_eq_true hold⟩,
    ⟨passed, hlookup', of_decide_eq_true hold'⟩⟩

end ShadeTree.Bootnode
