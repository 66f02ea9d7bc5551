import Mathlib
import ShadeTree.Bootnode.Calls

/-!
# The newest record stays (`admitGossip` beside `announce` in `bootnode/server.mjs`)

A record that a peer passes on is compared with the entry of its onion before its checks are awaited, and written
after them.  The clock stands here and there is room for everyone.  If no write overtakes a call that waits with an
older record, and no gateway announces itself over a record that is dated ahead of the clock, no entry ever expires
earlier than it did, and gossip alone ends with the newest record of every onion (`gossip_converges`).  Two calls on
one onion break it: the older record, compared before the newer one is written, is written over it
(`gossip_shortens`).
-/

namespace ShadeTree.Bootnode

open ShadeTree.Lib

/-- The expiry that a call writes. -/
def Source.expiry {K : Keys} (C : RegistryConfig) (clock : ℤ) (c : Checked K) : Source → ℚ
  | .live => now clock + C.ttlSec
  | .store expiresAt => expiresAt
  | .gossip => c.ts + C.ttlSec

section Conditions

variable {T : Type} {K : Keys}

/-- The clock stands, and no file is loaded. -/
def Event.Standing : Event T K → Prop
  | .tick | .load .. => False
  | _ => True

/-- No gossip call of the onion waits with an earlier expiry than the one that is written. -/
def NoOvertaking (C : RegistryConfig) (s : System T K) : Event T K → Prop
  | .accepted t source c => ∀ t' c' stage, t' ≠ t → s.calls t' = some ⟨.gossip, c', stage⟩ → c'.onion = c.onion →
      source.expiry C s.clock c ≤ c'.ts + C.ttlSec
  | _ => True

/-- Before a gateway announced an onion, no peer had passed on a record of it that is dated ahead of the clock. -/
def NoneAhead (clock : ℤ) (tr : List (Event T K)) : Prop :=
  ∀ tr₁ t c tr₂, tr = tr₁ ++ .accepted t .live c :: tr₂ →
    ∀ t' c', .accepted t' .gossip c' ∈ tr₁ → c'.onion = c.onion → c'.ts ≤ now clock

/-- A record that a peer passed on. -/
def Delivered (tr : List (Event T K)) (record : Record) : Prop :=
  ∃ t answer, .began t .gossip (some record) answer ∈ tr

/-- Every record verifies: what is refused has expired or is no news. -/
structure AllVerify (tr : List (Event T K)) : Prop where
  began : ∀ t source record why, .began t source record (.error why) ∈ tr → why = .staleGossip ∨ why = .freshExisting
  resumed : ∀ t why, .resumed t (.error why) ∉ tr

/-- Only peers hand records in. -/
def OnlyGossip (tr : List (Event T K)) : Prop :=
  ∀ t source record answer, .began t source record answer ∈ tr → source = .gossip

/-- The record is the newest one of its onion: every other one delivered is older. -/
structure Newest (tr : List (Event T K)) (onion : String) (record : Record) (ts : ℚ) : Prop where
  delivered : Delivered tr record
  onion_eq : record.onion = some onion
  ts_eq : record.ts = some ts
  older : ∀ record', Delivered tr record' → record'.onion = some onion → record' ≠ record →
    ∃ ts', record'.ts = some ts' ∧ ts' < ts

end Conditions

/-! ### What gossip is compared with -/

namespace Registry

variable {K : Keys} {C : RegistryConfig} {clock : ℤ} {record : Option Record} {r r' : Registry K} {c : Checked K}

/-- The checks of a record have reasons of their own. -/
lemma verifyHead_error {at_ skew : ℚ} {seen : String → Bool} {why : Refusal}
    (h : verifyHead K at_ skew seen record = .error why) : why ≠ .staleGossip ∧ why ≠ .freshExisting := by
  cases record with
  | none =>
    obtain rfl := Except.error.inj h
    exact ⟨by simp, by simp⟩
  | some record =>
    change verifyRecord K at_ skew seen record = .error why at h
    unfold verifyRecord at h
    split at h
    · obtain rfl := Except.error.inj h
      exact ⟨by simp, by simp⟩
    split at h
    · obtain rfl := Except.error.inj h
      exact ⟨by simp, by simp⟩
    split at h
    · obtain rfl := Except.error.inj h
      exact ⟨by simp, by simp⟩
    split at h
    · obtain rfl := Except.error.inj h
      exact ⟨by simp, by simp⟩
    split at h
    · obtain rfl := Except.error.inj h
      exact ⟨by simp, by simp⟩
    split at h
    · obtain rfl := Except.error.inj h
      exact ⟨by simp, by simp⟩
    split at h
    · unfold verifyCaps at h
      split at h
      · cases h
      · split at h
        · obtain rfl := Except.error.inj h
          exact ⟨by simp, by simp⟩
        · cases h
    · obtain rfl := Except.error.inj h
      exact ⟨by simp, by simp⟩

/-- Gossip that goes on to its checks expires later than the entry that is there. -/
lemma gossipHead_ok (h : (r.gossipHead C clock record).2 = .ok c) :
    now clock < c.ts + C.ttlSec ∧ ∀ entry, r.live.lookup c.onion = some entry → entry.expiresAt < c.ts + C.ttlSec := by
  have hrecord := (gossipHead_passes h).record_eq
  subst hrecord
  unfold gossipHead at h
  simp only [Option.bind_some, c.onion_eq, c.ts_eq] at h
  split at h
  · cases h
  next hlive =>
  split at h
  · cases h
  next hnewer =>
  refine ⟨not_le.mp hlive, fun entry hentry => not_le.mp fun hle => hnewer ?_⟩
  have hexisting : r.existing (some c.record) = some entry := by
    simp [existing, c.onion_eq, hentry]
  simp [hexisting, hle]

/-- Gossip that is refused as expired, or as no news. -/
lemma gossipHead_error {record : Record} {onion : String} {ts : ℚ} (honion : record.onion = some onion)
    (hts : record.ts = some ts) {why : Refusal} (h : (r.gossipHead C clock (some record)).2 = .error why) :
    (why = .staleGossip → ts + C.ttlSec ≤ now clock) ∧
      (why = .freshExisting → (r.gossipHead C clock (some record)).1 = r ∧
        ∃ entry, r.live.lookup onion = some entry ∧ ts + C.ttlSec ≤ entry.expiresAt) := by
  unfold gossipHead at h ⊢
  simp only [Option.bind_some, honion, hts] at h ⊢
  split at h
  · next hexpired =>
    obtain rfl := Except.error.inj h
    exact ⟨fun _ => hexpired, nofun⟩
  next hlive =>
  split at h
  · next hnews =>
    obtain rfl := Except.error.inj h
    refine ⟨nofun, fun _ => ?_⟩
    rw [if_neg hlive, if_pos hnews]
    obtain ⟨entry, hentry, hle⟩ := (Option.any_eq_true _ _).mp hnews
    refine ⟨rfl, entry, ?_, of_decide_eq_true hle⟩
    simpa [existing, honion] using hentry
  next hnews =>
  split at h
  · obtain rfl := Except.error.inj h
    exact ⟨nofun, nofun⟩
  · have hchecks : verifyHead K (now clock) Source.gossip.skew (fun _ => false) (some record) = .error why := h
    exact ⟨fun heq => absurd heq (verifyHead_error hchecks).1, fun heq => absurd heq (verifyHead_error hchecks).2⟩

/-- What a gossip call does up to its first `await`. -/
lemma begin_gossip {answer : Except Refusal (Call K)} (h : r.begin C clock .gossip record = (r', answer)) :
    (∀ call, answer = .ok call → call.source = .gossip ∧ (r.gossipHead C clock record).2 = .ok call.checked ∧
        record = some call.checked.record) ∧
      ∀ why, answer = .error why → why ≠ .notStaked → r.gossipHead C clock record = (r', .error why) := by
  have hhead : r.head C clock .gossip record = r.gossipHead C clock record := rfl
  have hpasses : ∀ c, (r.gossipHead C clock record).2 = .ok c → record = some c.record := fun c hc =>
    (gossipHead_passes hc).record_eq
  unfold begin at h
  dsimp only at h
  rw [hhead] at h
  generalize r.gossipHead C clock record = headed at h hpasses ⊢
  obtain ⟨r₁, outcome⟩ := headed
  cases outcome with
  | error why =>
    obtain ⟨rfl, rfl⟩ := Prod.mk.inj h
    refine ⟨fun call heq => by simp at heq, fun why' heq _ => ?_⟩
    rw [Except.error.inj heq]
  | ok c =>
    have hrecord := hpasses c rfl
    dsimp only at h
    split at h
    · obtain ⟨rfl, rfl⟩ := Prod.mk.inj h
      refine ⟨fun call heq => ?_, fun why heq => by simp at heq⟩
      obtain rfl := Except.ok.inj heq
      exact ⟨rfl, rfl, hrecord⟩
    · unfold finish at h
      split at h
      · obtain ⟨rfl, rfl⟩ := Prod.mk.inj h
        refine ⟨fun call heq => by simp at heq, fun why heq hne => ?_⟩
        exact absurd (Except.error.inj heq).symm hne
      · obtain ⟨rfl, rfl⟩ := Prod.mk.inj h
        refine ⟨fun call heq => ?_, fun why heq => by simp at heq⟩
        obtain rfl := Except.ok.inj heq
        exact ⟨rfl, rfl, hrecord⟩

lemma entryOf_expiresAt {source : Source} {operator : Option String} {staked : Bool} :
    (entryOf C clock source c operator staked).expiresAt = source.expiry C clock c := by
  cases source <;> rfl

/-- What has not expired stays listed. -/
lemma Pruned.lookup (h : Pruned C clock r r') {onion : String} {entry : Entry K}
    (hlookup : r.live.lookup onion = some entry) (hlive : now clock < entry.expiresAt) :
    r'.live.lookup onion = some entry := by
  rcases h with ⟨hsame, -⟩ | ⟨hswept, -⟩
  · rwa [hsame]
  · rw [hswept, directory_eq]
    exact Table.lookup_keep_eq_some.mpr ⟨hlookup, decide_eq_true hlive⟩

end Registry

/-! ### One step -/

section Runs

open Function (update)

variable {T : Type} [DecidableEq T] {K : Keys} {C : RegistryConfig} {clock : ℤ} {s u : System T K} {e : Event T K}
  {tr : List (Event T K)} {onion : String} {entry : Entry K}

/-- A step that writes no entry keeps what has not expired. -/
lemma Step.keeps_live (h : Step C s e u) (he : e.accepts = none)
    (hlookup : s.registry.live.lookup onion = some entry) (hlive : now s.clock < entry.expiresAt) :
    u.registry.live.lookup onion = some entry := by
  have hbegin : ∀ {source record r answer}, s.registry.begin C s.clock source record = (r, answer) →
      r.live.lookup onion = some entry := by
    intro source record r answer hbegun
    obtain ⟨r₁, hpruned, ⟨-, -, rfl⟩ | ⟨c, -, ⟨-, rfl⟩ | ⟨-, rfl⟩⟩⟩ := Registry.begin_cases hbegun
    · exact hpruned.lookup hlookup hlive
    · exact hpruned.lookup hlookup hlive
    · rw [Registry.addNonce_live]
      exact hpruned.lookup hlookup hlive
  cases h with
  | tick hclock => exact hlookup
  | sweep => exact Registry.Pruned.lookup (.inr ⟨rfl, rfl⟩) hlookup hlive
  | announce hidle hdone hbegun => exact hbegin hbegun
  | admitGossip hidle hdone hbegun => exact hbegin hbegun
  | load hidle hdone => exact hlookup
  | dropped hidle htodo hexpired => exact hlookup
  | restore hidle htodo hx hlive' hbegun => exact hbegin hbegun
  | accepted hcall => cases he
  | resumed hcall hresumed =>
    obtain ⟨-, ⟨-, -, rfl⟩ | ⟨-, -, rfl⟩ | ⟨-, -, -, rfl⟩⟩ := Registry.resume_cases hresumed
    · exact hlookup
    · exact hlookup
    · rwa [Registry.addNonce_live]

/-- While nothing is loaded, what begins is an announce or gossip. -/
lemma Step.began_source {t : T} {source : Source} {record : Option Record} {answer : Except Refusal (Call K)}
    (h : Step C s (.began t source record answer) u) (hidle : ∀ t, s.todo t = []) :
    (source = .live ∨ source = .gossip) ∧ s.registry.begin C s.clock source record = (u.registry, answer) := by
  cases h with
  | announce hnone hdone hbegun => exact ⟨.inl rfl, hbegun⟩
  | admitGossip hnone hdone hbegun => exact ⟨.inr rfl, hbegun⟩
  | restore hnone htodo hx hlive hbegun =>
    rw [hidle] at htodo
    cases htodo

lemma Step.standing (h : Step C s e u) (he : e.Standing) (hidle : ∀ t, s.todo t = []) :
    u.clock = s.clock ∧ ∀ t, u.todo t = [] := by
  cases h with
  | tick hclock => exact he.elim
  | load hnone hdone => exact he.elim
  | dropped hnone htodo hexpired =>
    rw [hidle] at htodo
    cases htodo
  | restore hnone htodo hx hlive hbegun =>
    rw [hidle] at htodo
    cases htodo
  | _ => exact ⟨rfl, hidle⟩

/-! ### No entry is shortened -/

omit [DecidableEq T] in
lemma NoneAhead.of_snoc (h : NoneAhead clock (tr ++ [e])) : NoneAhead clock tr := by
  rintro tr₁ t c tr₂ rfl
  exact h tr₁ t c (tr₂ ++ [e]) (by simp)

/-- What the clock and the calls are, where an entry has its expiry from, and that no gossip call waits with an
earlier expiry than the entry of its onion. -/
structure Fresh (C : RegistryConfig) (clock : ℤ) (tr : List (Event T K)) (s : System T K) : Prop where
  clock_eq : s.clock = clock
  idle : ∀ t, s.todo t = []
  sources : ∀ t call, s.calls t = some call → call.source = .live ∨ call.source = .gossip
  listed : ∀ onion entry, s.registry.live.lookup onion = some entry → entry.expiresAt = now clock + C.ttlSec ∨
    ∃ t c, .accepted t .gossip c ∈ tr ∧ c.onion = onion ∧ entry.expiresAt = c.ts + C.ttlSec
  newer : ∀ t c stage, s.calls t = some ⟨.gossip, c, stage⟩ →
    ∀ entry, s.registry.live.lookup c.onion = some entry → entry.expiresAt ≤ c.ts + C.ttlSec

omit [DecidableEq T] in
/-- A write finds no entry that expires later. -/
lemma Fresh.accepted (h : Fresh C clock tr s) {t : T} {source : Source} {c : Checked K} {stage : Stage}
    (hcall : s.calls t = some ⟨source, c, stage⟩) (hahead : NoneAhead clock (tr ++ [.accepted t source c]))
    (hlookup : s.registry.live.lookup c.onion = some entry) : entry.expiresAt ≤ source.expiry C clock c := by
  rcases h.sources t _ hcall with hsource | hsource
  · obtain rfl : source = .live := hsource
    rcases h.listed _ _ hlookup with heq | ⟨t', c', hmem, honion, heq⟩
    · exact heq.le
    · have hts := hahead tr t c [] rfl t' c' hmem honion
      rw [heq]
      exact add_le_add_left hts _
  · obtain rfl : source = .gossip := hsource
    exact h.newer t c stage hcall entry hlookup

/-- **No step shortens an entry.** -/
lemma Fresh.kept (h : Fresh C clock tr s) (hst : Step C s e u) (hahead : NoneAhead clock (tr ++ [e]))
    (hlookup : s.registry.live.lookup onion = some entry) (hlive : now clock < entry.expiresAt) :
    ∃ entry', u.registry.live.lookup onion = some entry' ∧ entry.expiresAt ≤ entry'.expiresAt := by
  rcases hst.live with ⟨t, source, c, operator, staked, rfl, -, hcall, hwrite⟩ | ⟨he, -⟩
  · by_cases honion : onion = c.onion
    · subst honion
      refine ⟨_, hwrite ▸ AList.lookup_insert _, ?_⟩
      rw [Registry.entryOf_expiresAt, h.clock_eq]
      exact h.accepted hcall hahead hlookup
    · refine ⟨entry, ?_, le_rfl⟩
      rw [hwrite, AList.lookup_insert_ne honion]
      exact hlookup
  · rw [← h.clock_eq] at hlive
    exact ⟨entry, hst.keeps_live he hlookup hlive, le_rfl⟩

/-- An entry after a step was there before, or is the one that was written. -/
lemma Step.lookup_cases (h : Step C s e u) (hlookup : u.registry.live.lookup onion = some entry) :
    s.registry.live.lookup onion = some entry ∧ e.accepts.all (fun write => write.2.onion ≠ onion) ∨
      ∃ t source c operator staked, e = .accepted t source c ∧ c.onion = onion ∧
        s.calls t = some ⟨source, c, .verified operator staked⟩ ∧
        entry = entryOf C s.clock source c operator staked := by
  rcases h.live with ⟨t, source, c, operator, staked, rfl, -, hcall, hwrite⟩ | ⟨he, p, hkept⟩
  · rw [hwrite] at hlookup
    by_cases honion : onion = c.onion
    · subst honion
      rw [AList.lookup_insert] at hlookup
      exact .inr ⟨t, source, c, operator, staked, rfl, rfl, hcall, (Option.some.inj hlookup).symm⟩
    · rw [AList.lookup_insert_ne honion] at hlookup
      refine .inl ⟨hlookup, ?_⟩
      simpa [Event.accepts] using Ne.symm honion
  · rw [hkept] at hlookup
    exact .inl ⟨(Table.lookup_keep_eq_some.mp hlookup).1, by simp [he]⟩

lemma Fresh.step (h : Fresh C clock tr s) (hst : Step C s e u) (hstand : e.Standing) (hover : NoOvertaking C s e) :
    Fresh C clock (tr ++ [e]) u := by
  obtain ⟨hclock, hidle⟩ := hst.standing hstand h.idle
  refine ⟨hclock.trans h.clock_eq, hidle, fun t call hcall => ?_, fun onion entry hlookup => ?_,
    fun t c stage hcall entry hlookup => ?_⟩
  · cases hst.origin hcall with
    | waits hold hthread => exact h.sources t call hold
    | began hpruned hpasses hr => exact (hst.began_source h.idle).1
    | resumed hold hsource hchecked hstage hr => exact hsource ▸ h.sources t _ hold
  · rcases hst.lookup_cases hlookup with ⟨hold, -⟩ | ⟨t, source, c, operator, staked, rfl, rfl, hcall, rfl⟩
    · refine (h.listed onion entry hold).imp_right ?_
      rintro ⟨t, c, hmem, honion, heq⟩
      exact ⟨t, c, List.mem_append_left _ hmem, honion, heq⟩
    · rw [Registry.entryOf_expiresAt, h.clock_eq]
      rcases h.sources t _ hcall with hsource | hsource
      · obtain rfl : source = .live := hsource
        exact .inl rfl
      · obtain rfl : source = .gossip := hsource
        exact .inr ⟨t, c, by simp, rfl, rfl⟩
  · -- the call waits after the step; it waited before, or has just been compared
    have hwaited : ∀ {stage'}, s.calls t = some ⟨.gossip, c, stage'⟩ → e.accepts = none ∨ e.thread ≠ some t →
        entry.expiresAt ≤ c.ts + C.ttlSec := by
      intro stage' hold hother
      rcases hst.lookup_cases hlookup with ⟨hlisted, -⟩ | ⟨t', source, c', operator, staked, rfl, honion, hcall', rfl⟩
      · exact h.newer t c _ hold entry hlisted
      · rw [Registry.entryOf_expiresAt]
        have hne : t ≠ t' := by
          rintro rfl
          rcases hother with hother | hother
          · cases hother
          · exact hother rfl
        exact hover t c _ hne hold honion.symm
    cases hst.origin hcall with
    | waits hold hthread => exact hwaited hold (.inr hthread)
    | began hpruned hpasses hr =>
      obtain ⟨-, hbegun⟩ := hst.began_source h.idle
      obtain ⟨-, hhead, -⟩ := (Registry.begin_gossip hbegun).1 _ rfl
      rcases hst.lookup_cases hlookup with ⟨hold, -⟩ | ⟨t', source, c', operator, staked, heq, -⟩
      · exact ((Registry.gossipHead_ok hhead).2 entry hold).le
      · cases heq
    | @resumed old hold hsource hchecked hstage hr =>
      obtain ⟨source, c', stage'⟩ := old
      obtain rfl : source = .gossip := hsource
      obtain rfl : c' = c := hchecked
      exact hwaited hold (.inl rfl)

/-- Every run in which no write overtakes. -/
lemma fresh_of_run (hrun : Run (Restrict (Step C) fun s e => e.Standing ∧ NoOvertaking C s e)
    (System.start C clock : System T K) tr s) : Fresh C clock tr s := by
  refine hrun.invariant (I := Fresh C clock) ?_ ?_
  · have hcalls : ∀ t, (System.start C clock : System T K).calls t = none := fun _ => rfl
    have hlive : ∀ onion, (System.start C clock : System T K).registry.live.lookup onion = none := fun _ => rfl
    refine ⟨rfl, fun _ => rfl, ?_, ?_, ?_⟩
    · intro t call hcall
      simp [hcalls] at hcall
    · intro onion entry hlookup
      simp [hlive] at hlookup
    · intro t c stage hcall
      simp [hcalls] at hcall
  · rintro tr t e u - hfresh ⟨⟨hstand, hover⟩, hst⟩
    exact hfresh.step hst hstand hover

/-! ### Gossip alone -/

/-- A waiting call waits on, is refused, or writes its entry. -/
lemma Step.call_next (h : Step C s e u) {t : T} {call : Call K} (hcall : s.calls t = some call) :
    (∃ call', u.calls t = some call' ∧ call'.checked = call.checked) ∨ (∃ why, e = .resumed t (.error why)) ∨
      ∃ operator staked, u.registry.live =
        s.registry.live.insert call.checked.onion (entryOf C s.clock call.source call.checked operator staked) := by
  have hother : ∀ {t' : T} {call' : Option (Call K)}, s.calls t' = none → update s.calls t' call' t = some call := by
    intro t' call' hidle
    have hne : t ≠ t' := by
      rintro rfl
      rw [hidle] at hcall
      cases hcall
    rwa [Function.update_of_ne hne]
  cases h with
  | tick hclock => exact .inl ⟨call, hcall, rfl⟩
  | sweep => exact .inl ⟨call, hcall, rfl⟩
  | announce hidle hdone hbegun => exact .inl ⟨call, hother hidle, rfl⟩
  | admitGossip hidle hdone hbegun => exact .inl ⟨call, hother hidle, rfl⟩
  | load hidle hdone => exact .inl ⟨call, hcall, rfl⟩
  | dropped hidle htodo hexpired => exact .inl ⟨call, hcall, rfl⟩
  | restore hidle htodo hx hlive hbegun => exact .inl ⟨call, hother hidle, rfl⟩
  | @accepted t' source c operator staked hwrites =>
    by_cases ht : t = t'
    · subst ht
      obtain rfl := Option.some.inj (hcall.symm.trans hwrites)
      exact .inr (.inr ⟨operator, staked, rfl⟩)
    · refine .inl ⟨call, ?_, rfl⟩
      change update s.calls t' none t = some call
      rwa [Function.update_of_ne ht]
  | @resumed t' old told r answer hold hresumed =>
    by_cases ht : t = t'
    · subst ht
      obtain rfl := Option.some.inj (hcall.symm.trans hold)
      obtain ⟨-, ⟨why, rfl, -⟩ | ⟨operator, rfl, -⟩ | ⟨operator, staked, rfl, -⟩⟩ := Registry.resume_cases hresumed
      · exact .inr (.inl ⟨why, rfl⟩)
      · exact .inl ⟨_, Function.update_self .., rfl⟩
      · exact .inl ⟨_, Function.update_self .., rfl⟩
    · refine .inl ⟨call, ?_, rfl⟩
      change update s.calls t' answer.toOption t = some call
      rwa [Function.update_of_ne ht]

/-- A thread that begins a call waits in it, if it is not refused. -/
lemma Step.began_calls {t : T} {source : Source} {record : Option Record} {call : Call K}
    (h : Step C s (.began t source record (.ok call)) u) : u.calls t = some call := by
  cases h with
  | announce hidle hdone hbegun => exact Function.update_self ..
  | admitGossip hidle hdone hbegun => exact Function.update_self ..
  | restore hidle htodo hx hlive hbegun => exact Function.update_self ..

omit [DecidableEq T] in
lemma Delivered.append {record : Record} (h : Delivered tr record) : Delivered (tr ++ [e]) record := by
  obtain ⟨t, answer, hmem⟩ := h
  exact ⟨t, answer, List.mem_append_left _ hmem⟩

/-- Calls and entries come from records that were delivered, and what was delivered waits or is covered by an entry
that expires no earlier. -/
structure Merged (C : RegistryConfig) (clock : ℤ) (tr : List (Event T K)) (s : System T K) : Prop where
  calls : ∀ t call, s.calls t = some call → call.source = .gossip ∧ Delivered tr call.checked.record ∧
    now clock < call.checked.ts + C.ttlSec
  listed : ∀ onion entry, s.registry.live.lookup onion = some entry → entry.checked.onion = onion ∧
    Delivered tr entry.checked.record ∧ entry.expiresAt = entry.checked.ts + C.ttlSec ∧ now clock < entry.expiresAt
  covered : ∀ record onion ts, Delivered tr record → record.onion = some onion → record.ts = some ts →
    now clock < ts + C.ttlSec → (∃ t call, s.calls t = some call ∧ call.checked.record = record) ∨
      ∃ entry, s.registry.live.lookup onion = some entry ∧ ts + C.ttlSec ≤ entry.expiresAt

/-- A record that has just been delivered. -/
lemma Fresh.delivered (h : Fresh C clock tr s) {t : T} {record : Record} {answer : Except Refusal (Call K)} {ts : ℚ}
    (hst : Step C s (.began t .gossip (some record) answer) u)
    (hverify : ∀ why, answer = .error why → why = .staleGossip ∨ why = .freshExisting)
    (honion : record.onion = some onion) (hts : record.ts = some ts) (hlive : now clock < ts + C.ttlSec) :
    (∃ t call, u.calls t = some call ∧ call.checked.record = record) ∨
      ∃ entry, u.registry.live.lookup onion = some entry ∧ ts + C.ttlSec ≤ entry.expiresAt := by
  obtain ⟨-, hbegun⟩ := hst.began_source h.idle
  obtain ⟨hgoes, hrefused⟩ := Registry.begin_gossip hbegun
  cases answer with
  | ok call =>
    obtain ⟨-, -, hrecord⟩ := hgoes call rfl
    exact .inl ⟨t, call, hst.began_calls, (Option.some.inj hrecord).symm⟩
  | error why =>
    have hwhy := hverify why rfl
    have hhead := hrefused why rfl (by rcases hwhy with rfl | rfl <;> simp)
    obtain ⟨hstale, hfresh⟩ := Registry.gossipHead_error honion hts
      (show (s.registry.gossipHead C s.clock (some record)).2 = .error why from congrArg Prod.snd hhead)
    rcases hwhy with rfl | rfl
    · have hle := hstale rfl
      rw [h.clock_eq] at hle
      exact absurd hlive (not_lt.mpr hle)
    · obtain ⟨hsame, entry, hentry, hle⟩ := hfresh rfl
      rw [hhead] at hsame
      have hregistry : u.registry = s.registry := hsame
      exact .inr ⟨entry, hregistry ▸ hentry, hle⟩

lemma Merged.step (h : Merged C clock tr s) (hfresh : Fresh C clock tr s) (hst : Step C s e u)
    (hahead : NoneAhead clock (tr ++ [e])) (honly : OnlyGossip (tr ++ [e])) (hverify : AllVerify (tr ++ [e])) :
    Merged C clock (tr ++ [e]) u := by
  refine ⟨fun t call hcall => ?_, fun onion entry hlookup => ?_, fun record onion ts hdelivered honion hts hlive => ?_⟩
  · cases hst.origin hcall with
    | waits hold hthread =>
      obtain ⟨hsource, hdelivered, hlive⟩ := h.calls t call hold
      exact ⟨hsource, hdelivered.append, hlive⟩
    | @began record r₁ hpruned hpasses hr =>
      have hsource : call.source = .gossip := honly t call.source record (.ok call) (by simp)
      obtain ⟨-, hbegun⟩ := hst.began_source hfresh.idle
      rw [hsource] at hbegun
      obtain ⟨-, hhead, hrecord⟩ := (Registry.begin_gossip hbegun).1 call rfl
      refine ⟨hsource, ⟨t, .ok call, ?_⟩, ?_⟩
      · rw [← hrecord, ← hsource]
        simp
      · rw [← hfresh.clock_eq]
        exact (Registry.gossipHead_ok hhead).1
    | @resumed old hold hsource hchecked hstage hr =>
      obtain ⟨hsource', hdelivered, hlive⟩ := h.calls t old hold
      rw [hsource] at hsource'
      rw [hchecked] at hdelivered hlive
      exact ⟨hsource', hdelivered.append, hlive⟩
  · rcases hst.lookup_cases hlookup with ⟨hold, -⟩ | ⟨t, source, c, operator, staked, rfl, rfl, hcall, rfl⟩
    · obtain ⟨honion, hdelivered, hexpiry, hlive⟩ := h.listed onion entry hold
      exact ⟨honion, hdelivered.append, hexpiry, hlive⟩
    · obtain ⟨hsource, hdelivered, hlive⟩ := h.calls t _ hcall
      obtain rfl : source = .gossip := hsource
      exact ⟨rfl, hdelivered.append, rfl, hlive⟩
  · have hkept : (∃ entry, s.registry.live.lookup onion = some entry ∧ ts + C.ttlSec ≤ entry.expiresAt) →
        ∃ entry, u.registry.live.lookup onion = some entry ∧ ts + C.ttlSec ≤ entry.expiresAt := by
      rintro ⟨entry, hlookup, hle⟩
      obtain ⟨entry', hlookup', hle'⟩ := hfresh.kept hst hahead hlookup (lt_of_lt_of_le hlive hle)
      exact ⟨entry', hlookup', hle.trans hle'⟩
    obtain ⟨t, answer, hmem⟩ := hdelivered
    rcases List.mem_append.mp hmem with hold | hnew
    · rcases h.covered record onion ts ⟨t, answer, hold⟩ honion hts hlive with ⟨t', call, hcall, rfl⟩ | hentry
      · rcases hst.call_next hcall with ⟨call', hcall', hchecked⟩ | ⟨why, rfl⟩ | ⟨operator, staked, hwrite⟩
        · exact .inl ⟨t', call', hcall', by rw [hchecked]⟩
        · exact absurd (by simp) (hverify.resumed t' why)
        · obtain ⟨hsource, -, -⟩ := h.calls t' call hcall
          have honion' : call.checked.onion = onion := Option.some.inj (call.checked.onion_eq.symm.trans honion)
          have hts' : call.checked.ts = ts := Option.some.inj (call.checked.ts_eq.symm.trans hts)
          refine .inr ⟨_, by rw [hwrite, honion', AList.lookup_insert], ?_⟩
          rw [Registry.entryOf_expiresAt, hsource, ← hts']
          exact le_rfl
      · exact .inr (hkept hentry)
    · obtain rfl := List.mem_singleton.mp hnew
      exact hfresh.delivered hst (fun why hwhy => hverify.began t .gossip (some record) why (by simp [hwhy])) honion hts
        hlive

/-- A run of gossip in which no write overtakes. -/
lemma merged_of_run (hrun : Run (Restrict (Step C) fun s e => e.Standing ∧ NoOvertaking C s e)
    (System.start C clock : System T K) tr s) (hahead : NoneAhead clock tr) (honly : OnlyGossip tr)
    (hverify : AllVerify tr) : Merged C clock tr s := by
  induction hrun with
  | nil =>
    have hcalls : ∀ t, (System.start C clock : System T K).calls t = none := fun _ => rfl
    have hlive : ∀ onion, (System.start C clock : System T K).registry.live.lookup onion = none := fun _ => rfl
    refine ⟨?_, ?_, ?_⟩
    · intro t call hcall
      simp [hcalls] at hcall
    · intro onion entry hlookup
      simp [hlive] at hlookup
    · rintro record onion ts ⟨t, answer, hmem⟩
      simp at hmem
  | @snoc tr s u e hrun hst ih =>
    have hmerged := ih hahead.of_snoc (fun t source record answer hmem => honly t source record answer (by simp [hmem]))
      ⟨fun t source record why hmem => hverify.began t source record why (by simp [hmem]),
        fun t why hmem => hverify.resumed t why (by simp [hmem])⟩
    exact hmerged.step (fresh_of_run hrun) hst.2 hahead honly hverify

end Runs

/-- **Gossip keeps the newest record.** While the clock stands, no write overtakes a gossip call that waits with an
earlier expiry, and no announce comes after gossip of its onion dated ahead of the clock: no step shortens the expiry
of an entry that has not expired; and once gossip alone has been taken in, whatever its order, every onion has its
newest record, with the expiry that record signs, unless all of them have expired. -/
theorem gossip_converges {T : Type} [DecidableEq T] {K : Keys} (C : RegistryConfig) (clock : ℤ)
    {tr : List (Event T K)} {s : System T K}
    (hrun : Run (Restrict (Step C) fun s e => e.Standing ∧ NoOvertaking C s e) (System.start C clock) tr s)
    (hahead : NoneAhead clock tr) :
    (∀ e u onion entry, Step C s e u → NoneAhead clock (tr ++ [e]) →
        s.registry.live.lookup onion = some entry → now clock < entry.expiresAt →
        ∃ entry', u.registry.live.lookup onion = some entry' ∧ entry.expiresAt ≤ entry'.expiresAt) ∧
      (OnlyGossip tr → AllVerify tr → (∀ t, s.calls t = none) →
        (∀ onion record ts, Newest tr onion record ts → now clock < ts + C.ttlSec →
          ∃ entry, s.registry.live.lookup onion = some entry ∧ entry.checked.record = record ∧
            entry.expiresAt = ts + C.ttlSec) ∧
        ∀ onion, (∀ record ts, Delivered tr record → record.onion = some onion → record.ts = some ts →
          ts + C.ttlSec ≤ now clock) → s.registry.live.lookup onion = none) := by
  have hfresh := fresh_of_run hrun
  refine ⟨fun e u onion entry hst hahead' hlookup hlive => hfresh.kept hst hahead' hlookup hlive, ?_⟩
  intro honly hverify hquiet
  have hmerged := merged_of_run hrun hahead honly hverify
  constructor
  · intro onion record ts hnewest hlive
    rcases hmerged.covered record onion ts hnewest.delivered hnewest.onion_eq hnewest.ts_eq hlive with
      ⟨t, call, hcall, -⟩ | ⟨entry, hlookup, hle⟩
    · simp [hquiet] at hcall
    obtain ⟨honion, hdelivered, hexpiry, -⟩ := hmerged.listed onion entry hlookup
    have hrecord : entry.checked.record = record := by
      by_contra hne
      obtain ⟨ts', hts', hlt⟩ := hnewest.older _ hdelivered (honion ▸ entry.checked.onion_eq) hne
      obtain rfl : entry.checked.ts = ts' := Option.some.inj (entry.checked.ts_eq.symm.trans hts')
      rw [hexpiry] at hle
      linarith
    refine ⟨entry, hlookup, hrecord, ?_⟩
    have hts : entry.checked.ts = ts :=
      Option.some.inj (entry.checked.ts_eq.symm.trans (hrecord ▸ hnewest.ts_eq))
    rw [hexpiry, hts]
  · intro onion hexpired
    cases hlookup : s.registry.live.lookup onion with
    | none => rfl
    | some entry =>
      obtain ⟨honion, hdelivered, hexpiry, hlive⟩ := hmerged.listed onion entry hlookup
      have hle := hexpired _ _ hdelivered (honion ▸ entry.checked.onion_eq) entry.checked.ts_eq
      rw [hexpiry] at hlive
      exact absurd hlive (not_lt.mpr hle)

/-! ### One call after the other -/

/-- A gossip call that is not refused takes a step. -/
def Event.gossips {T : Type} {K : Keys} : Event T K → Bool
  | .began _ .gossip _ (.ok _) | .accepted _ .gossip _ => true
  | _ => false

/-- The record that a peer passes on in a step. -/
def Event.passed {T : Type} {K : Keys} : Event T K → Option Record
  | .began _ .gossip record _ => record
  | _ => none

lemma delivered_iff {T : Type} {K : Keys} {tr : List (Event T K)} {record : Record} :
    Delivered tr record ↔ record ∈ tr.filterMap Event.passed := by
  constructor
  · rintro ⟨t, answer, hmem⟩
    exact List.mem_filterMap.mpr ⟨_, hmem, rfl⟩
  · intro hmem
    obtain ⟨e, he, hpassed⟩ := List.mem_filterMap.mp hmem
    unfold Event.passed at hpassed
    split at hpassed
    · next t record' answer =>
      subst hpassed
      exact ⟨t, answer, he⟩
    · cases hpassed

/-- Two records of one onion, passed on one after the other: the second one stays. -/
theorem gossip_converges_twice : ∃ tr : List (Event Unit signedKeys), ∃ s : System Unit signedKeys, ∃ record entry,
    Newest tr zeroOnion record 120 ∧ s.registry.live.lookup zeroOnion = some entry ∧
      entry.checked.record = record ∧ entry.expiresAt = 120 + (openConfig 10).ttlSec := by
  obtain ⟨tr, s, hrun, hpassed, hquiet⟩ := System.exists_run (openConfig 10)
    (System.start (openConfig 10) 0 : System Unit signedKeys) (fun _ e => e.gossips = true)
    [.admitGossip () (some (plainRecord zeroOnion 60 "n")), .write (),
      .admitGossip () (some (plainRecord zeroOnion 120 "m")), .write ()]
    (fun tr s => ((tr.filterMap Event.passed).map fun record => (record.onion, record.ts)) =
      [(some zeroOnion, some 60), (some zeroOnion, some 120)] ∧ (s.calls ()).isNone = true)
    (by decide +kernel)
  have hgossips : ∀ e ∈ tr, e.gossips = true := by
    intro e he
    obtain ⟨-, -, -, -, -, -, ⟨hgossips, -⟩, -⟩ := hrun.exists_step he
    exact hgossips
  have hnone : NoneAhead 0 tr := by
    rintro tr₁ t c tr₂ rfl
    have hlive := hgossips (.accepted t .live c) (by simp)
    cases hlive
  have honly : OnlyGossip tr := by
    intro t source record answer hmem
    have hbegan := hgossips _ hmem
    cases source with
    | gossip => rfl
    | _ => cases hbegan
  have hverify : AllVerify tr := by
    refine ⟨fun t source record why hmem => ?_, fun t why hmem => ?_⟩
    · have hbegan := hgossips _ hmem
      cases source <;> cases hbegan
    · cases hgossips _ hmem
  obtain ⟨older, newer, hrecords⟩ : ∃ older newer, tr.filterMap Event.passed = [older, newer] :=
    List.length_eq_two.mp (by simpa using congrArg List.length hpassed)
  rw [hrecords] at hpassed
  simp only [List.map_cons, List.map_nil, List.cons.injEq, Prod.mk.injEq, and_true] at hpassed
  obtain ⟨⟨-, holder⟩, honion, hts⟩ := hpassed
  have hnewest : Newest tr zeroOnion newer 120 := by
    refine ⟨delivered_iff.mpr (by simp [hrecords]), honion, hts, fun record hdelivered _ hne => ⟨60, ?_, by norm_num⟩⟩
    rw [delivered_iff, hrecords] at hdelivered
    rcases List.mem_cons.mp hdelivered with rfl | hmem
    · exact holder
    · exact absurd (List.mem_singleton.mp hmem) hne
  -- with one thread no write overtakes
  have hstands : Run (Restrict (Step (openConfig 10)) fun s e => e.Standing ∧ NoOvertaking (openConfig 10) s e)
      (System.start (openConfig 10) 0) tr s := by
    refine hrun.mono fun s e u hst => ⟨⟨?_, ?_⟩, hst.2⟩
    · cases e <;> first | trivial | cases hst.1
    · cases e <;> first | trivial | exact fun t' _ _ hne => absurd rfl hne
  obtain ⟨entry, hentry⟩ := ((gossip_converges (openConfig 10) 0 hstands hnone).2 honly hverify
    fun _ => Option.isNone_iff_eq_none.mp hquiet).1 zeroOnion newer 120 hnewest (by decide +kernel)
  exact ⟨tr, s, newer, entry, hnewest, hentry⟩

/-! ### Two calls at once -/

/-- The older of two records of one onion, compared before the newer one is written, is written over it. -/
theorem gossip_shortens : ∃ tr, ∃ s u : System ℕ signedKeys, ∃ e entry entry',
    Run (Restrict (Step (openConfig 10)) fun _ e => e.gossips = true) (System.start (openConfig 10) 0) tr s ∧
    Step (openConfig 10) s e u ∧ e.gossips = true ∧
    s.registry.live.lookup zeroOnion = some entry ∧ now s.clock < entry.expiresAt ∧
    u.registry.live.lookup zeroOnion = some entry' ∧ entry'.expiresAt < entry.expiresAt := by
  obtain ⟨tr, s, hrun, hlisted, hnext⟩ := System.exists_run (openConfig 10)
    (System.start (openConfig 10) 0 : System ℕ signedKeys) (fun _ e => e.gossips = true)
    [.admitGossip 0 (some (plainRecord zeroOnion 60 "n")), .admitGossip 1 (some (plainRecord zeroOnion 0 "m")),
      .write 0]
    (fun _ s => ((s.registry.live.lookup zeroOnion).any fun e => e.expiresAt = 960 ∧ now s.clock < 960) = true ∧
      ((s.exec (openConfig 10) (.write 1)).any fun stepped => stepped.1.gossips = true ∧
        ((stepped.2.registry.live.lookup zeroOnion).any fun e => e.expiresAt = 900) = true) = true)
    (by decide +kernel)
  obtain ⟨entry, hlookup, hentry⟩ := (Option.any_eq_true _ _).mp hlisted
  obtain ⟨hexpiry, hlive⟩ := of_decide_eq_true hentry
  obtain ⟨⟨e, u⟩, hexec, hstepped⟩ := (Option.any_eq_true _ _).mp hnext
  obtain ⟨hgossips, hlisted'⟩ := of_decide_eq_true hstepped
  obtain ⟨entry', hlookup', hentry'⟩ := (Option.any_eq_true _ _).mp hlisted'
  have hexpiry' : entry'.expiresAt = 900 := of_decide_eq_true hentry'
  refine ⟨tr, s, u, e, entry, entry', hrun, System.exec_step hexec, hgossips, hlookup, ?_, hlookup', ?_⟩
  · rwa [hexpiry]
  · rw [hexpiry, hexpiry']
    norm_num

end ShadeTree.Bootnode
