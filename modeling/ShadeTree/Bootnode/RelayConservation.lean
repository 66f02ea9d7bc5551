import Mathlib
import ShadeTree.Bootnode.RelayReporter

/-!
# What the relay telemetry adds up to

The Elder adds what each accepted report brings to the contributions of its onion, and publishes totals over two
windows that ended some hours ago.  Here the reports of one gateway are those its reporter builds, in any order
and any number of times; those of the other onions are whatever is sent.
-/

namespace ShadeTree.Bootnode.Relay

open ShadeTree.Lib

/-! ### The windows (`aggregateWindow`, `snapshot`) -/

def RELAY_MINIMUM_COHORT : ℕ := 5

def RELAY_DELAY_HOURS : ℤ := 6

def HOUR_MS : ℤ := 60 * 60000

/-- The hours of the windows `sixHour` and `twentyFourHour`. -/
def RELAY_WINDOWS : List ℤ := [6, 24]

/-- The options of the publication; a bucket of 0 bytes would make `snapshot` throw. -/
structure PublishConfig where
  minimumCohort : ℕ
  delayHours : ℤ
  bucketBytes : ℕ
  minimumCohort_ge : RELAY_MINIMUM_COHORT ≤ minimumCohort
  delayHours_ge : RELAY_DELAY_HOURS ≤ delayHours
  bucketBytes_pos : 0 < bucketBytes

inductive Suppression where
  | unavailable | minimumCohort
  deriving DecidableEq, Repr

/-- `suppressionReason(reporters, total, minimumCohort)`. -/
def suppressionReason (reporters total minimumCohort : ℕ) : Option Suppression :=
  if reporters = 0 then some .unavailable
  else if reporters < minimumCohort then some .minimumCohort
  else if total = 0 then some .unavailable
  else none

/-- `roundedUp(value, bucket)`. -/
def roundedUp (value bucket : ℕ) : ℕ := if value = 0 then 0 else (value + bucket - 1) / bucket * bucket

/-- A window: suppressed for a reason, or available with its rounded bytes. -/
structure RelayWindow where
  windowHours : ℤ
  windowStart : ℤ
  windowEnd : ℤ
  reportingNodes : ℕ
  status : Except Suppression ℕ

/-- The contributions within a window. -/
def eligible (contributions : List Contribution) (windowStart windowEnd : ℤ) : List Contribution :=
  contributions.filter fun entry => windowStart ≤ entry.start ∧ entry.endAt ≤ windowEnd

/-- `new Set(eligible.map((entry) => entry.onion)).size`. -/
def reporters (l : List Contribution) : ℕ := (l.map Contribution.onion).dedup.length

/-- `aggregateWindow(windowEnd, hours)`. -/
def aggregateWindow (P : PublishConfig) (contributions : List Contribution) (windowEnd hours : ℤ) : RelayWindow :=
  let windowStart := windowEnd - hours * HOUR_MS
  let counted := eligible contributions windowStart windowEnd
  let total := (counted.map Contribution.bytes).sum
  { windowHours := hours
    windowStart := windowStart
    windowEnd := windowEnd
    reportingNodes := reporters counted
    status := match suppressionReason (reporters counted) total P.minimumCohort with
      | some reason => .error reason
      | none => .ok (roundedUp total P.bucketBytes) }

structure RelayAggregate where
  generatedAt : ℤ
  windows : List RelayWindow

/-- `snapshot()` at some time: the state it leaves and what it publishes. -/
def Aggregator.snapshot (C : RelayConfig) (P : PublishConfig) (current : ℤ) (s : Aggregator) :
    Aggregator × RelayAggregate :=
  let s := s.prune C current
  let windowEnd := (current - P.delayHours * HOUR_MS) / HOUR_MS * HOUR_MS
  (s, { generatedAt := current / (15 * 60000) * (15 * 60000)
        windows := RELAY_WINDOWS.map (aggregateWindow P s.contributions windowEnd) })

/-! ### A reporter and the Elder -/

structure Relays where
  reporter : Reporter
  elder : Aggregator

def Relays.start (c : RelayByteCounter) : Relays := ⟨.start c, .start⟩

/-- A step of the reporter, or one of the Elder: of the onion it receives only what the reporter has signed. -/
inductive RelaysStep (sign : RelayReport → String) (verifyRelayReport : RelayReport → Bool) (C : RelayConfig)
    (onion : String) : Relays → Option RelayEvent → Relays → Prop where
  | reporter {s : Relays} {r : Reporter} : ReporterStep sign onion s.reporter r →
      RelaysStep sign verifyRelayReport C onion s none { s with reporter := r }
  | elder {s : Relays} {e : RelayEvent} {a : Aggregator} : RelayStep verifyRelayReport C s.elder e a →
      (∀ r, e = .received r → r.onion = onion →
        ∃ x ∈ s.reporter.built, ∃ signature, validRelayReport { x.1 with signature := signature } = some r) →
      RelaysStep sign verifyRelayReport C onion s (some e) { s with elder := a }

/-- The reports of an onion and a boot that were accepted, with the bytes they brought. -/
def acceptedOf (onion bootId : String) (tr : List (Option RelayEvent)) : List (ValidReport × ℕ × ℕ) :=
  tr.filterMap fun
    | some (.accepted r deltaA deltaB) =>
      if r.onion = onion ∧ r.bootId = bootId then some (r, deltaA, deltaB) else none
    | _ => none

/-- The accepted deltas of each boot sum to the counters of the last report of it that was accepted. -/
def Conserved (onion : String) (tr : List (Option RelayEvent)) : Prop :=
  ∀ bootId, ∀ last ∈ (acceptedOf onion bootId tr).getLast?,
    ((acceptedOf onion bootId tr).map fun x => x.2.1).sum = last.1.currentA ∧
    ((acceptedOf onion bootId tr).map fun x => x.2.2).sum = last.1.currentB

/-- **The condition.** A report of the onion that is accepted while it has no entry begins after every interval
that was accepted for it before. -/
def Anew (onion : String) (s : Relays) : Option RelayEvent → Prop
  | some (.accepted r _ _) => r.onion = onion → s.elder.nodes.lookup onion = none →
      ∀ c ∈ s.elder.reported, c.onion = onion → c.endAt ≤ r.start
  | _ => True

/-! ### What the Elder holds -/

section Elder

variable {C : RelayConfig} {s s' : Aggregator} {e : RelayEvent} {verify : RelayReport → Bool}

/-- The contributions held are among those reported, each onion's one after the other and none past its entry. -/
structure Held (s : Aggregator) : Prop where
  entry : ∀ c ∈ s.contributions, ∃ n, s.nodes.lookup c.onion = some n ∧ c.endAt ≤ n.endAt
  apart : s.contributions.Pairwise fun c c' => c.onion = c'.onion → c.endAt ≤ c'.start
  sublist : s.contributions.Sublist s.reported

lemma Held.start : Held .start where
  entry _ h := by simp [Aggregator.start] at h
  apart := List.Pairwise.nil
  sublist := List.Sublist.refl _

lemma Held.of_eq (h : Held s) (hnodes : s'.nodes = s.nodes) (hcontributions : s'.contributions = s.contributions)
    (hreported : s'.reported = s.reported) : Held s' := by
  refine ⟨?_, ?_, ?_⟩
  · rw [hcontributions, hnodes]
    exact h.entry
  · rw [hcontributions]
    exact h.apart
  · rw [hcontributions, hreported]
    exact h.sublist

/-- An entry is forgotten no earlier than the contributions before its end. -/
lemma Held.prune (h : Held s) (now : ℤ) : Held (s.prune C now) := by
  refine ⟨?_, ?_, ?_⟩
  · intro c hc
    rw [Aggregator.contributions_prune, List.mem_filter] at hc
    obtain ⟨n, hn, hle⟩ := h.entry c hc.1
    have hkept : now - C.retentionMs ≤ c.endAt := of_decide_eq_true hc.2
    refine ⟨n, ?_, hle⟩
    rw [Aggregator.nodes_prune, Table.lookup_keep_eq_some]
    exact ⟨hn, decide_eq_true (hkept.trans hle)⟩
  · rw [Aggregator.contributions_prune]
    exact h.apart.filter _
  · rw [Aggregator.contributions_prune, Aggregator.reported_prune]
    exact List.filter_sublist.trans h.sublist

lemma Held.record {r : ValidReport} {deltaA deltaB : ℕ} (h : Held s)
    (hd : deltas C r (s.nodes.lookup r.onion) = .ok (deltaA, deltaB)) : Held (s.record C r deltaA deltaB) := by
  have hbefore : ∀ c ∈ s.contributions, c.onion = r.onion → c.endAt ≤ r.start := by
    intro c hc ho
    obtain ⟨n, hn, hle⟩ := h.entry c hc
    exact hle.trans ((deltas_ok hd).1 n (ho ▸ hn)).2
  have hlt := r.start_lt
  refine ⟨?_, ?_, ?_⟩
  · intro c hc
    simp only [Aggregator.record, Aggregator.contributions_checkpoint, List.mem_append, List.mem_singleton] at hc
    simp only [Aggregator.record, Aggregator.nodes_checkpoint]
    by_cases ho : c.onion = r.onion
    · refine ⟨_, by rw [ho]; exact AList.lookup_insert _, ?_⟩
      rcases hc with hc | rfl
      · exact (hbefore c hc ho).trans hlt.le
      · exact le_refl _
    · rcases hc with hc | rfl
      · obtain ⟨n, hn, hle⟩ := h.entry c hc
        exact ⟨n, by rw [AList.lookup_insert_ne ho]; exact hn, hle⟩
      · exact absurd rfl ho
  · simp only [Aggregator.record, Aggregator.contributions_checkpoint]
    refine List.pairwise_append.mpr ⟨h.apart, List.pairwise_singleton _ _, ?_⟩
    rintro c hc c' hc' ho
    obtain rfl := List.mem_singleton.mp hc'
    exact hbefore c hc ho
  · simp only [Aggregator.record, Aggregator.contributions_checkpoint, Aggregator.reported_checkpoint]
    exact h.sublist.append (List.Sublist.refl _)

lemma Held.step (h : Held s) (hst : RelayStep verify C s e s') : Held s' := by
  cases hst with
  | malformed current => exact h.prune current
  | invalid current _ => exact h.prune current
  | forged current _ _ => exact h.prune current
  | receive current _ _ => exact (h.prune (C := C) current).of_eq rfl rfl rfl
  | reject _ _ _ => exact h.of_eq rfl rfl rfl
  | accept _ _ hj => exact (h.record (judge_ok hj)).of_eq rfl rfl rfl
  | prune now => exact h.prune now
  | restart _ => exact ⟨fun _ hc => by simp at hc, List.Pairwise.nil, List.nil_sublist _⟩

/-- The file is the table, if there is one. -/
def Stored (C : RelayConfig) (s : Aggregator) : Prop := s.stored = if C.statePath then s.nodes else ∅

lemma Stored.checkpoint (h : C.statePath = false → s.stored = ∅) : Stored C (s.checkpoint C) := by
  unfold Stored Aggregator.checkpoint
  cases hpath : C.statePath with
  | true => simp
  | false => simpa using h hpath

lemma Stored.unstored (h : Stored C s) (hpath : C.statePath = false) : s.stored = ∅ := by
  rw [h, hpath]
  rfl

lemma Stored.prune (h : Stored C s) (now : ℤ) : Stored C (s.prune C now) := by
  simp only [Aggregator.prune]
  split
  · exact Stored.checkpoint h.unstored
  · next hsame =>
    have hkeep : s.nodes.keep (fun _ entry => decide (now - C.retentionMs ≤ entry.endAt)) = s.nodes := by
      refine AList.ext (List.filter_eq_self.mpr fun x hx => decide_eq_true (not_lt.mp fun hlt => hsame ?_))
      exact List.any_eq_true.mpr ⟨x, hx, decide_eq_true hlt⟩
    simp only [Stored, hkeep]
    exact h

lemma Stored.record (h : Stored C s) (r : ValidReport) (deltaA deltaB : ℕ) : Stored C (s.record C r deltaA deltaB) :=
  Stored.checkpoint (s := { s with nodes := _, contributions := _, reported := _ }) h.unstored

lemma Stored.restart (h : Stored C s) :
    Stored C { s with nodes := s.stored, contributions := [], waiting := [] } := by
  unfold Stored
  cases hpath : C.statePath with
  | true => rfl
  | false => exact h.unstored hpath

lemma Stored.step (h : Stored C s) (hst : RelayStep verify C s e s') : Stored C s' := by
  cases hst with
  | malformed current => exact h.prune current
  | invalid current _ => exact h.prune current
  | forged current _ _ => exact h.prune current
  | receive current _ _ => exact h.prune current
  | reject _ _ _ => exact h
  | accept _ _ _ => exact h.record _ _ _
  | prune now => exact h.prune now
  | restart _ => exact h.restart

/-- What a step that accepts nothing leaves: no entry is new, and no report waits but the one received. -/
lemma RelayStep.quiet (hst : RelayStep verify C s e s') (hs : Stored C s) (he : e.contribution = none) :
    (∀ onion n, s'.nodes.lookup onion = some n → s.nodes.lookup onion = some n) ∧
      ∀ w ∈ s'.waiting, w ∈ s.waiting ∨ e = .received w.1 := by
  have hprune : ∀ now onion n, (s.prune C now).nodes.lookup onion = some n → s.nodes.lookup onion = some n := by
    intro now onion n hn
    rw [Aggregator.nodes_prune] at hn
    exact (Table.lookup_keep_eq_some.mp hn).1
  cases hst with
  | malformed current => exact ⟨hprune current, fun w hw => .inl (by simpa using hw)⟩
  | invalid current _ => exact ⟨hprune current, fun w hw => .inl (by simpa using hw)⟩
  | forged current _ _ => exact ⟨hprune current, fun w hw => .inl (by simpa using hw)⟩
  | receive current _ _ =>
    refine ⟨hprune current, fun w hw => ?_⟩
    rcases List.mem_append.mp hw with hw | hw
    · exact .inl hw
    · obtain rfl := List.mem_singleton.mp hw
      exact .inr rfl
  | reject _ _ _ => exact ⟨fun _ _ hn => hn, fun w hw => .inl (List.mem_of_mem_eraseIdx hw)⟩
  | accept _ _ _ => cases he
  | prune now => exact ⟨hprune now, fun w hw => .inl (by simpa using hw)⟩
  | restart _ =>
    refine ⟨fun onion n hn => ?_, fun w hw => by simp at hw⟩
    unfold Stored at hs
    simp only [hs] at hn
    split at hn
    · exact hn
    · simp at hn

/-- What a step that accepts a report does. -/
lemma RelayStep.accepts {r : ValidReport} {deltaA deltaB : ℕ}
    (hst : RelayStep verify C s (.accepted r deltaA deltaB) s') :
    (∃ current, (r, current) ∈ s.waiting) ∧ deltas C r (s.nodes.lookup r.onion) = .ok (deltaA, deltaB) ∧
      s'.nodes = s.nodes.insert r.onion ⟨r.sequence, r.bootId, r.endAt, r.currentA, r.currentB⟩ ∧
      ∀ w ∈ s'.waiting, w ∈ s.waiting := by
  cases hst with
  | accept _ hget hj =>
    refine ⟨⟨_, List.mem_of_getElem? hget⟩, judge_ok hj, by simp [Aggregator.record], ?_⟩
    exact fun w hw => List.mem_of_mem_eraseIdx hw

end Elder

/-! ### What the reports of one reporter add up to -/

/-- A report of a process that was started, as the Elder reads it. -/
def FromBoot (boots : Table String ℤ) (r : ValidReport) : Prop :=
  ∃ startedAt, boots.lookup r.bootId = some startedAt ∧ startedAt ≤ r.start ∧
    (r.occurred = true → r.start = startedAt)

lemma Grounded.fromBoot {boots : Table String ℤ} {report : RelayReport} {signature : String} {r : ValidReport}
    (h : Grounded boots report) (hvalid : validRelayReport { report with signature := signature } = some r) :
    FromBoot boots r := by
  obtain ⟨startedAt, startMs, endMs, hboot, hstart, -, -, hle, hreset⟩ := h
  obtain ⟨-, hid, -, hs, -, -, -, hoccurred⟩ := validRelayReport_some hvalid
  obtain rfl : startMs = r.start := Option.some.inj (hstart.symm.trans hs)
  exact ⟨startedAt, by rw [hid]; exact hboot, hle, fun ho => hreset (hoccurred ▸ ho)⟩

section Conserved

variable {sign : RelayReport → String} {verify : RelayReport → Bool} {C : RelayConfig} {onion : String}
  {tr : List (Option RelayEvent)} {s s' : Relays} {e : RelayEvent}

lemma acceptedOf_append (bootId : String) (l : List (Option RelayEvent)) :
    acceptedOf onion bootId (tr ++ l) = acceptedOf onion bootId tr ++ acceptedOf onion bootId l :=
  List.filterMap_append

lemma acceptedOf_other (bootId : String) (l : Option RelayEvent)
    (h : ∀ r a b, l = some (.accepted r a b) → r.onion ≠ onion ∨ r.bootId ≠ bootId) :
    acceptedOf onion bootId (tr ++ [l]) = acceptedOf onion bootId tr := by
  have hnil : acceptedOf onion bootId [l] = [] := by
    unfold acceptedOf
    rcases l with _ | e
    · rfl
    · cases e with
      | accepted r a b =>
        have hne := h r a b rfl
        have : ¬ (r.onion = onion ∧ r.bootId = bootId) := by tauto
        simp [this]
      | _ => rfl
  rw [acceptedOf_append, hnil, List.append_nil]

lemma acceptedOf_same {r : ValidReport} {a b : ℕ} (ho : r.onion = onion) :
    acceptedOf onion r.bootId (tr ++ [some (.accepted r a b)]) = acceptedOf onion r.bootId tr ++ [(r, a, b)] := by
  rw [acceptedOf_append]
  simp [acceptedOf, ho]

/-- What a run keeps of the reports of the onion. -/
structure Accounted (C : RelayConfig) (onion : String) (tr : List (Option RelayEvent)) (s : Relays) : Prop where
  honest : Honest s.reporter
  stored : Stored C s.elder
  waiting : ∀ w ∈ s.elder.waiting, w.1.onion = onion → FromBoot s.reporter.boots w.1
  accepted : ∀ bootId, ∀ x ∈ acceptedOf onion bootId tr, x.1.bootId = bootId ∧ FromBoot s.reporter.boots x.1 ∧
    ∃ c ∈ s.elder.reported, c.onion = onion ∧ c.endAt = x.1.endAt
  conserved : Conserved onion tr
  entry : ∀ n, s.elder.nodes.lookup onion = some n →
    (∃ last ∈ (acceptedOf onion n.bootId tr).getLast?,
      n.agentToDestination = last.1.currentA ∧ n.destinationToAgent = last.1.currentB) ∧
    ∀ c ∈ s.elder.reported, c.onion = onion → c.endAt ≤ n.endAt

lemma Accounted.start (c : RelayByteCounter) : Accounted C onion [] (.start c) where
  honest := Honest.start c
  stored := by simp [Stored, Relays.start, Aggregator.start]
  waiting _ h := by simp [Relays.start, Aggregator.start] at h
  accepted _ _ h := by simp [acceptedOf] at h
  conserved _ _ h := by simp [acceptedOf] at h
  entry _ h := by simp [Relays.start, Aggregator.start] at h

/-- A step that accepts no report of the onion keeps what it forgets of the trace and the entries. -/
lemma Accounted.quiet {l : Option RelayEvent} (h : Accounted C onion tr s)
    (hl : ∀ r a b, l = some (.accepted r a b) → r.onion ≠ onion)
    (hhonest : Honest s'.reporter) (hstored : Stored C s'.elder)
    (hboots : ∀ id t, s.reporter.boots.lookup id = some t → s'.reporter.boots.lookup id = some t)
    (hwaiting : ∀ w ∈ s'.elder.waiting, w.1.onion = onion → FromBoot s'.reporter.boots w.1)
    (hnodes : ∀ n, s'.elder.nodes.lookup onion = some n → s.elder.nodes.lookup onion = some n)
    (hreported : ∀ c ∈ s.elder.reported, c ∈ s'.elder.reported)
    (hreported' : ∀ c ∈ s'.elder.reported, c.onion = onion → c ∈ s.elder.reported) :
    Accounted C onion (tr ++ [l]) s' := by
  have hsame : ∀ bootId, acceptedOf onion bootId (tr ++ [l]) = acceptedOf onion bootId tr :=
    fun bootId => acceptedOf_other bootId l fun r a b hr => .inl (hl r a b hr)
  refine ⟨hhonest, hstored, hwaiting, ?_, ?_, ?_⟩
  · intro bootId x hx
    rw [hsame] at hx
    obtain ⟨hid, ⟨startedAt, ht, hrest⟩, c, hc, hends⟩ := h.accepted bootId x hx
    exact ⟨hid, ⟨startedAt, hboots _ _ ht, hrest⟩, c, hreported c hc, hends⟩
  · intro bootId
    rw [hsame]
    exact h.conserved bootId
  · intro n hn
    obtain ⟨hlast, hends⟩ := h.entry n (hnodes n hn)
    exact ⟨by rw [hsame]; exact hlast, fun c hc ho => hends c (hreported' c hc ho) ho⟩

/-- A reset is the first report of its boot: it begins when the process did, and after all that was accepted. -/
lemma Accounted.first {r : ValidReport} (h : Accounted C onion tr s) (hboot : FromBoot s.reporter.boots r)
    (hreset : r.occurred = true)
    (hafter : ∀ c ∈ s.elder.reported, c.onion = onion → c.endAt ≤ r.start) : acceptedOf onion r.bootId tr = [] := by
  refine List.eq_nil_iff_forall_not_mem.mpr fun x hx => ?_
  obtain ⟨hid, ⟨startedAt, ht, hle, -⟩, c, hc, ho, hend⟩ := h.accepted _ x hx
  obtain ⟨startedAt', ht', -, hstart⟩ := hboot
  rw [hid, ht'] at ht
  obtain rfl := Option.some.inj ht
  have := hafter c hc ho
  have := hstart hreset
  have := x.1.start_lt
  omega

/-- An accepted report of the onion accounts for its counters. -/
lemma Accounted.accept {r : ValidReport} {deltaA deltaB : ℕ} {elder : Aggregator} (h : Accounted C onion tr s)
    (hst : RelayStep verify C s.elder (.accepted r deltaA deltaB) elder) (ho : r.onion = onion)
    (hnew : Anew onion s (some (.accepted r deltaA deltaB))) :
    Accounted C onion (tr ++ [some (.accepted r deltaA deltaB)]) { s with elder := elder } := by
  obtain ⟨⟨current, hwait⟩, hd, hnodes, hwaiting⟩ := hst.accepts
  have hreported : elder.reported = s.elder.reported ++ [⟨r.onion, r.start, r.endAt, deltaA, deltaB⟩] := hst.reported
  have hboot := h.waiting _ hwait ho
  have hlt := r.start_lt
  obtain ⟨hpast, -, hdeltas⟩ := deltas_ok hd
  rw [ho] at hpast hdeltas
  have hafter : ∀ c ∈ s.elder.reported, c.onion = onion → c.endAt ≤ r.start := by
    intro c hc hco
    cases hn : s.elder.nodes.lookup onion with
    | none => exact hnew ho hn c hc hco
    | some n => exact ((h.entry n hn).2 c hc hco).trans (hpast n hn).2
  have hmem : ∀ c ∈ s.elder.reported, c ∈ elder.reported := by
    intro c hc
    rw [hreported]
    exact List.mem_append_left _ hc
  have hnew' : ∃ c ∈ elder.reported, c.onion = onion ∧ c.endAt = r.endAt := by
    refine ⟨⟨r.onion, r.start, r.endAt, deltaA, deltaB⟩, ?_, ho, rfl⟩
    rw [hreported]
    exact List.mem_append_right _ List.mem_cons_self
  -- what the deltas of the boot summed to, and what is new of it
  have hsum : ((acceptedOf onion r.bootId tr).map fun x => x.2.1).sum + deltaA = r.currentA ∧
      ((acceptedOf onion r.bootId tr).map fun x => x.2.2).sum + deltaB = r.currentB := by
    rcases hdeltas with ⟨n, hn, hid, -, hA, hB⟩ | ⟨-, hreset, rfl, rfl⟩
    · obtain ⟨⟨last, hlast, hnA, hnB⟩, -⟩ := h.entry n hn
      rw [hid] at hlast
      obtain ⟨hsumA, hsumB⟩ := h.conserved r.bootId last hlast
      omega
    · rw [h.first hboot hreset hafter]
      simp
  have hother : ∀ bootId, bootId ≠ r.bootId →
      acceptedOf onion bootId (tr ++ [some (.accepted r deltaA deltaB)]) = acceptedOf onion bootId tr := by
    intro bootId hne
    refine acceptedOf_other bootId _ fun r' a b hr => .inr ?_
    cases hr
    exact fun hid => hne hid.symm
  refine ⟨h.honest, h.stored.step hst, fun w hw => h.waiting w (hwaiting w hw), ?_, ?_, ?_⟩
  · intro bootId x hx
    by_cases hid : bootId = r.bootId
    · subst hid
      rw [acceptedOf_same ho, List.mem_append, List.mem_singleton] at hx
      rcases hx with hx | rfl
      · obtain ⟨hid, hfrom, c, hc, hends⟩ := h.accepted _ x hx
        exact ⟨hid, hfrom, c, hmem c hc, hends⟩
      · exact ⟨rfl, hboot, hnew'⟩
    · rw [hother bootId hid] at hx
      obtain ⟨hid, hfrom, c, hc, hends⟩ := h.accepted _ x hx
      exact ⟨hid, hfrom, c, hmem c hc, hends⟩
  · intro bootId
    by_cases hid : bootId = r.bootId
    · subst hid
      intro last hlast
      rw [acceptedOf_same ho, List.getLast?_concat] at hlast
      obtain rfl := Option.some.inj hlast
      rw [acceptedOf_same ho]
      simpa using hsum
    · rw [hother bootId hid]
      exact h.conserved bootId
  · intro n hn
    have hn : elder.nodes.lookup onion = some n := hn
    rw [hnodes, ho, AList.lookup_insert] at hn
    obtain rfl := Option.some.inj hn
    refine ⟨⟨(r, deltaA, deltaB), ?_, rfl, rfl⟩, ?_⟩
    · show _ ∈ (acceptedOf onion r.bootId _).getLast?
      rw [acceptedOf_same ho, List.getLast?_concat]
      rfl
    · intro c hc hco
      rw [hreported, List.mem_append, List.mem_singleton] at hc
      rcases hc with hc | rfl
      · exact (hafter c hc hco).trans hlt.le
      · exact le_refl _

/-- A step of the Elder that accepts no report of the onion. -/
lemma RelayStep.elsewhere {elder elder' : Aggregator} (hst : RelayStep verify C elder e elder') (hs : Stored C elder)
    (hno : ∀ r a b, e = .accepted r a b → r.onion ≠ onion) :
    (∀ n, elder'.nodes.lookup onion = some n → elder.nodes.lookup onion = some n) ∧
      (∀ w ∈ elder'.waiting, w ∈ elder.waiting ∨ e = .received w.1) ∧
      ∀ c ∈ elder'.reported, c.onion = onion → c ∈ elder.reported := by
  have hreported := hst.reported
  cases he : e.contribution with
  | none =>
    obtain ⟨hnodes, hwaiting⟩ := hst.quiet hs he
    refine ⟨hnodes onion, hwaiting, fun c hc _ => ?_⟩
    simpa [hreported, he] using hc
  | some c₀ =>
    cases e with
    | accepted r a b =>
      obtain ⟨-, -, hnodes, hwaiting⟩ := hst.accepts
      have hne := hno r a b rfl
      refine ⟨fun n hn => ?_, fun w hw => .inl (hwaiting w hw), fun c hc ho => ?_⟩
      · rwa [hnodes, AList.lookup_insert_ne (Ne.symm hne)] at hn
      · rw [hreported, List.mem_append] at hc
        rcases hc with hc | hc
        · exact hc
        · obtain rfl := List.mem_singleton.mp hc
          exact absurd ho hne
    | _ => cases he

lemma Accounted.step {l : Option RelayEvent} (h : Accounted C onion tr s)
    (hst : RelaysStep sign verify C onion s l s') (hnew : Anew onion s l) : Accounted C onion (tr ++ [l]) s' := by
  cases hst with
  | reporter hrep =>
    refine h.quiet nofun (h.honest.step hrep) h.stored (fun id t ht => hrep.boots ht) ?_ (fun n hn => hn)
      (fun c hc => hc) fun c hc _ => hc
    intro w hw ho
    obtain ⟨startedAt, ht, hrest⟩ := h.waiting w hw ho
    exact ⟨startedAt, hrep.boots ht, hrest⟩
  | @elder e elder hel hsigned =>
    by_cases hacc : ∃ r a b, e = .accepted r a b ∧ r.onion = onion
    · obtain ⟨r, a, b, rfl, ho⟩ := hacc
      exact h.accept hel ho hnew
    · have hno : ∀ r a b, e = .accepted r a b → r.onion ≠ onion := fun r a b he ho => hacc ⟨r, a, b, he, ho⟩
      obtain ⟨hnodes, hwaiting, hreported⟩ := hel.elsewhere h.stored hno
      refine h.quiet (fun r a b hr => hno r a b (Option.some.inj hr)) h.honest (h.stored.step hel)
        (fun _ _ ht => ht) ?_ hnodes ?_ hreported
      · intro w hw ho
        rcases hwaiting w hw with hw | he
        · exact h.waiting w hw ho
        · obtain ⟨x, hx, signature, hvalid⟩ := hsigned w.1 he ho
          exact (h.honest.built x hx).1.fromBoot hvalid
      · intro c hc
        show c ∈ elder.reported
        rw [hel.reported]
        exact List.mem_append_left _ hc

lemma run_accounted {c : RelayByteCounter}
    (h : Run (Restrict (RelaysStep sign verify C onion) (Anew onion)) (.start c) tr s) : Accounted C onion tr s :=
  h.invariant (Accounted.start c) fun _ _ _ _ _ hacc hst => hacc.step hst.2 hst.1

/-- The run of the Elder within one of both. -/
lemma run_elder {c : RelayByteCounter} (h : Run (RelaysStep sign verify C onion) (.start c) tr s) :
    Run (RelayStep verify C) .start (tr.filterMap id) s.elder := by
  refine h.invariant (I := fun tr s => Run (RelayStep verify C) .start (tr.filterMap id) s.elder) .nil ?_
  intro tr t e u _ ih hst
  rw [List.filterMap_append]
  cases hst with
  | reporter _ => simpa using ih
  | elder hel _ => exact ih.snoc hel

lemma run_held {evs : List RelayEvent} {elder : Aggregator} (h : Run (RelayStep verify C) .start evs elder) :
    Held elder :=
  h.invariant_state Held.start fun _ _ _ hk hst => hk.step hst

end Conserved

/-- **What a window counts.** Contributions that were accepted, each once, within the window, and those of one
onion for times apart. -/
structure Counted (P : PublishConfig) (accepted : List Contribution) (w : RelayWindow) (l : List Contribution) :
    Prop where
  once : l.Sublist accepted
  within : ∀ c ∈ l, w.windowStart ≤ c.start ∧ c.endAt ≤ w.windowEnd
  apart : l.Pairwise fun c c' => c.onion = c'.onion → Disjoint (Set.Ico c.start c.endAt) (Set.Ico c'.start c'.endAt)
  nodes : w.reportingNodes = (l.map Contribution.onion).toFinset.card
  total : ∀ bytes, w.status = .ok bytes → bytes = roundedUp (l.map Contribution.bytes).sum P.bucketBytes ∧
    P.minimumCohort ≤ (l.map Contribution.onion).toFinset.card

lemma pairwise_disjoint {l : List Contribution}
    (h : l.Pairwise fun c c' => c.onion = c'.onion → c.endAt ≤ c'.start) :
    l.Pairwise fun c c' => c.onion = c'.onion → Disjoint (Set.Ico c.start c.endAt) (Set.Ico c'.start c'.endAt) :=
  h.imp fun himp ho => Set.Ico_disjoint_Ico.mpr ((min_le_left _ _).trans ((himp ho).trans (le_max_right _ _)))

lemma reporters_eq (l : List Contribution) : reporters l = (l.map Contribution.onion).toFinset.card :=
  (List.card_toFinset _).symm

lemma Held.counted {s : Aggregator} (h : Held s) (P : PublishConfig) (windowEnd hours : ℤ) :
    Counted P s.reported (aggregateWindow P s.contributions windowEnd hours)
      (eligible s.contributions (windowEnd - hours * HOUR_MS) windowEnd) where
  once := List.filter_sublist.trans h.sublist
  within c hc := of_decide_eq_true (List.mem_filter.mp hc).2
  apart := pairwise_disjoint (h.apart.sublist List.filter_sublist)
  nodes := reporters_eq _
  total bytes hbytes := by
    simp only [aggregateWindow] at hbytes
    split at hbytes
    · cases hbytes
    · next hnone =>
      obtain rfl := Except.ok.inj hbytes
      refine ⟨rfl, ?_⟩
      rw [← reporters_eq]
      unfold suppressionReason at hnone
      split at hnone
      · cases hnone
      split at hnone
      · cases hnone
      · next hcohort => exact not_lt.mp hcohort

/-- **Relay telemetry is conserved under the condition.** In any run, whatever the other onions send and however
the reports of the reporter are repeated, delayed and reordered, the contributions held for one onion are for
times apart, each window counts a contribution at most once, and it is available only with the cohort; and if the
condition holds of every step, the accepted deltas of each boot sum to its last accepted counters. -/
theorem relay_conserved {sign : RelayReport → String} {verify : RelayReport → Bool} {C : RelayConfig}
    (P : PublishConfig) {onion : String} {c : RelayByteCounter} {tr : List (Option RelayEvent)} {s : Relays}
    (h : Run (RelaysStep sign verify C onion) (.start c) tr s) :
    (Run (Restrict (RelaysStep sign verify C onion) (Anew onion)) (.start c) tr s → Conserved onion tr) ∧
      (s.elder.contributions.Pairwise fun c c' => c.onion = c'.onion →
        Disjoint (Set.Ico c.start c.endAt) (Set.Ico c'.start c'.endAt)) ∧
      ∀ current, ∀ w ∈ (s.elder.snapshot C P current).2.windows,
        ∃ l, Counted P ((tr.filterMap id).filterMap RelayEvent.contribution) w l := by
  have hheld := run_held (run_elder h)
  refine ⟨fun hnew => (run_accounted hnew).conserved, pairwise_disjoint hheld.apart, fun current w hw => ?_⟩
  obtain ⟨hours, -, rfl⟩ := List.mem_map.mp hw
  have hcounted := (hheld.prune (C := C) current).counted P
    ((current - P.delayHours * HOUR_MS) / HOUR_MS * HOUR_MS) hours
  rw [Aggregator.reported_prune, run_reported (run_elder h)] at hcounted
  exact ⟨_, hcounted⟩

/-! ### A reset that is accepted twice -/

/-- A report of the reporter that arrives and is accepted with no other waiting. -/
lemma run_delivered {sign : RelayReport → String} {verify : RelayReport → Bool} {C : RelayConfig} {onion : String}
    {cond : Relays → Option RelayEvent → Prop} {c : RelayByteCounter} {tr : List (Option RelayEvent)} {s : Relays}
    (h : Run (Restrict (RelaysStep sign verify C onion) cond) (.start c) tr s) (current : ℤ) (report : RelayReport)
    (next : RelayReportState) (r : ValidReport) (deltaA deltaB : ℕ) (hwait : s.elder.waiting = [])
    (hbuilt : (report, next) ∈ s.reporter.built) (hvalid : validRelayReport report = some r)
    (hverify : verify report = true)
    (hjudge : judge C current true r ((s.elder.prune C current).nodes.lookup r.onion) = .ok (deltaA, deltaB))
    (hc : cond s (some (.received r)))
    (hc' : cond { s with elder := { s.elder.prune C current with waiting := [(r, current)] } }
      (some (.accepted r deltaA deltaB))) :
    Run (Restrict (RelaysStep sign verify C onion) cond) (.start c)
      (tr ++ [some (.received r)] ++ [some (.accepted r deltaA deltaB)])
      { s with elder := s.elder.accepted C current r deltaA deltaB } := by
  have hreceive := RelayStep.receive (s := s.elder) (C := C) current hvalid hverify
  rw [hwait, List.nil_append] at hreceive
  refine (h.snoc ⟨hc, .elder hreceive ?_⟩).snoc ⟨hc', .elder (RelayStep.accept (i := 0) true rfl hjudge) nofun⟩
  rintro r' hr -
  cases hr
  exact ⟨_, hbuilt, report.signature, hvalid⟩

def zeroSignature : String := String.ofList (List.replicate 128 '0')

/-- The counters of a gateway that started at 0. -/
def sampleCounter (updatedAt : ℤ) (bytes : ℕ) (h : 0 ≤ updatedAt) (hb : bytes ≤ MAX_U64) : RelayByteCounter :=
  ⟨"000102030405060708090a0b0c0d0e0f", 0, updatedAt, bytes, 0, by decide, h, hb, Nat.zero_le _⟩

/-- The first two steps of the reporter and the report that is accepted after an hour. -/
lemma run_sample (cond : Relays → Option RelayEvent → Prop) (hcond : ∀ s, cond s none)
    (hreceived : ∀ s r, cond s (some (.received r)))
    (haccepted : ∀ s r a b, s.elder.reported = [] → cond s (some (.accepted r a b))) :
    ∃ tr, Run (Restrict (RelaysStep (fun _ => zeroSignature) (fun _ => true) (RelayConfig.default true) zeroOnion) cond)
      (.start (sampleCounter 0 0 (by decide) (by decide))) tr
      ⟨⟨sampleCounter 3600000 1000 (by decide) (by decide), none,
        (∅ : Table String ℤ).insert "000102030405060708090a0b0c0d0e0f" 0,
        [(sampleReport 1 0 3600000 "1000" true, stateOf (sampleReport 1 0 3600000 "1000" true))]⟩,
        Aggregator.start.accepted (RelayConfig.default true) 3600000
          (sampleValid 1 0 3600000 1000 true (by decide)) 1000 0⟩ ∧
      acceptedOf zeroOnion "000102030405060708090a0b0c0d0e0f" tr =
        [(sampleValid 1 0 3600000 1000 true (by decide), 1000, 0)] := by
  have hflush := (Run.nil : Run (Restrict (RelaysStep (fun _ => zeroSignature) (fun _ => true)
    (RelayConfig.default true) zeroOnion) cond) (.start (sampleCounter 0 0 (by decide) (by decide))) [] _).snoc
    ⟨hcond _, .reporter (.flush (c := sampleCounter 3600000 1000 (by decide) (by decide))
      ⟨rfl, rfl, by decide, by decide, by decide⟩)⟩
  have hbuild := hflush.snoc ⟨hcond _, .reporter (.build (sampleReport 1 0 3600000 "1000" true)
    (stateOf (sampleReport 1 0 3600000 "1000" true)) 3600000 (by decide +kernel))⟩
  have hone := run_delivered hbuild 3600000 (sampleReport 1 0 3600000 "1000" true) _
    (sampleValid 1 0 3600000 1000 true (by decide)) 1000 0 rfl List.mem_cons_self (by decide +kernel) rfl
    (by decide) (hreceived _ _) (haccepted _ _ _ _ (by decide))
  exact ⟨_, hone, by decide⟩

def PublishConfig.default : PublishConfig where
  minimumCohort := RELAY_MINIMUM_COHORT
  delayHours := RELAY_DELAY_HOURS
  bucketBytes := 1024 * 1024 * 1024
  minimumCohort_ge := le_refl _
  delayHours_ge := le_refl _
  bucketBytes_pos := by decide

/-- One report, of 1000 bytes. -/
theorem relay_conserved_once : ∃ tr s,
    Run (Restrict (RelaysStep (fun _ => zeroSignature) (fun _ => true) (RelayConfig.default true) zeroOnion)
      (Anew zeroOnion)) (.start (sampleCounter 0 0 (by decide) (by decide))) tr s ∧
    (acceptedOf zeroOnion "000102030405060708090a0b0c0d0e0f" tr).length = 1 ∧ Conserved zeroOnion tr := by
  obtain ⟨tr, hrun, hacc⟩ := run_sample (Anew zeroOnion) (fun _ => trivial) (fun _ _ => trivial)
    fun s r a b hnone _ _ c hc _ => by rw [hnone] at hc; cases hc
  exact ⟨tr, _, hrun, by rw [hacc]; rfl, (relay_conserved PublishConfig.default hrun.forget).1 hrun⟩

/-- The answer to the first report is lost, so the next one of the same boot is a reset as well.  It arrives when
the entry of the first has been forgotten, and the bytes of the first count again. -/
theorem relay_not_conserved :
    ¬ ∀ tr s, Run (RelaysStep (fun _ => zeroSignature) (fun _ => true) (RelayConfig.default true) zeroOnion)
      (.start (sampleCounter 0 0 (by decide) (by decide))) tr s → Conserved zeroOnion tr := by
  intro hall
  obtain ⟨tr, hrun, hacc⟩ := run_sample (fun _ _ => True) (fun _ => trivial) (fun _ _ => trivial) fun _ _ _ _ _ => trivial
  have hflush := hrun.snoc ⟨trivial, .reporter (.flush (c := sampleCounter 72000000 3000 (by decide) (by decide))
    ⟨rfl, rfl, by decide, by decide, by decide⟩)⟩
  have hbuild := hflush.snoc ⟨trivial, .reporter (.build (sampleReport 1 0 72000000 "3000" true)
    (stateOf (sampleReport 1 0 72000000 "3000" true)) 72000000 (by decide +kernel))⟩
  -- after 38 hours
  have htwo := run_delivered hbuild 136800000 (sampleReport 1 0 72000000 "3000" true) _
    (sampleValid 1 0 72000000 3000 true (by decide)) 3000 0 rfl (List.mem_cons_of_mem _ List.mem_cons_self)
    (by decide +kernel) rfl (by decide +kernel) trivial trivial
  have hsum := hall _ _ htwo.forget "000102030405060708090a0b0c0d0e0f"
  simp only [acceptedOf_append, hacc] at hsum
  exact absurd hsum (by decide)

end ShadeTree.Bootnode.Relay
