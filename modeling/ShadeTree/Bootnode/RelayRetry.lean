import Mathlib.Tactic.Linarith
import ShadeTree.Bootnode.RelayConservation

/-!
# Reports that are tried again (`reportRelayOnce` in `bootnode/heartbeat.mjs`)

The heartbeat sends one report at a time and goes on from it only after the Elder has accepted it and the answer
has come back.  Until then the next report begins where the last one that was answered ended, however long ago
that is.
-/

namespace ShadeTree.Bootnode.Relay

open ShadeTree.Lib

/-- The gateway's two processes and the Elder, under one clock. -/
structure Retry where
  clock : ℤ
  reporter : Reporter
  elder : Aggregator

def Retry.start (bootId : String) (now : ℤ) (h : lowerHex 32 bootId = true) : Retry :=
  ⟨now, .start (.boot bootId now h), .start⟩

/-- The bytes relayed in some time, within what the Elder takes for plausible. -/
def WithinRate (C : RelayConfig) (c c' : RelayByteCounter) (elapsed : ℤ) : Prop :=
  c.Later c' ∧ 1000 * ((c'.agentToDestination + c'.destinationToAgent : ℤ) -
    (c.agentToDestination + c.destinationToAgent)) ≤ C.maxBytesPerSecond * elapsed

inductive RetryEvent where
  | passed (clock : ℤ)
  | rebooted (bootId : String)
  | built
  | rejected (why : Reject)
  | accepted (r : ValidReport) (acked : Bool)
  | others
  | pruned
  | restarted

/-- Time goes by, the gateway restarts, the heartbeat builds a report, and a report that was built is judged by the
Elder, with the clock it read when the call began; if the answer is lost the heartbeat remembers nothing of it.
The reports of other onions, and the calls that prune, go on meanwhile. -/
inductive RetryStep (sign : RelayReport → String) (verifyRelayReport : RelayReport → Bool) (C : RelayConfig)
    (onion : String) : Retry → RetryEvent → Retry → Prop where
  | pass {s : Retry} {c : RelayByteCounter} (clock : ℤ) : s.clock ≤ clock →
      WithinRate C s.reporter.counter c (clock - s.clock) →
      RetryStep sign verifyRelayReport C onion s (.passed clock)
        { s with clock := clock, reporter := { s.reporter with counter := c } }
  | reboot {s : Retry} {bootId : String} (h : lowerHex 32 bootId = true) : bootId ∉ s.reporter.boots →
      RetryStep sign verifyRelayReport C onion s (.rebooted bootId)
        { s with reporter := { s.reporter with
          counter := .boot bootId s.clock h, boots := s.reporter.boots.insert bootId s.clock } }
  | build {s : Retry} (report : RelayReport) (next : RelayReportState) :
      buildRelayReport sign s.reporter.counter.snapshot s.reporter.previous onion (some s.clock) = .ok (report, next) →
      RetryStep sign verifyRelayReport C onion s .built
        { s with reporter := { s.reporter with built := s.reporter.built ++ [(report, next)] } }
  | reject {s : Retry} {report : RelayReport} {next : RelayReportState} {r : ValidReport} {why : Reject} (current : ℤ)
      (announced : Bool) : current ≤ s.clock → (report, next) ∈ s.reporter.built → validRelayReport report = some r →
      judge C current announced r ((s.elder.prune C current).nodes.lookup r.onion) = .error why →
      RetryStep sign verifyRelayReport C onion s (.rejected why) { s with elder := s.elder.prune C current }
  | accept {s : Retry} {report : RelayReport} {next : RelayReportState} {r : ValidReport} (current : ℤ)
      (announced acked : Bool) (deltaA deltaB : ℕ) : current ≤ s.clock → (report, next) ∈ s.reporter.built →
      validRelayReport report = some r → verifyRelayReport report = true →
      judge C current announced r ((s.elder.prune C current).nodes.lookup r.onion) = .ok (deltaA, deltaB) →
      RetryStep sign verifyRelayReport C onion s (.accepted r acked)
        { s with
          reporter := { s.reporter with previous := if acked then some next else s.reporter.previous }
          elder := (s.elder.prune C current).record C r deltaA deltaB }
  | others {s : Retry} {r : ValidReport} (deltaA deltaB : ℕ) : r.onion ≠ onion →
      RetryStep sign verifyRelayReport C onion s .others { s with elder := s.elder.record C r deltaA deltaB }
  | prune {s : Retry} (now : ℤ) : now ≤ s.clock →
      RetryStep sign verifyRelayReport C onion s .pruned { s with elder := s.elder.prune C now }
  | restart {s : Retry} : s.elder.stored.size ≤ 100000 →
      RetryStep sign verifyRelayReport C onion s .restarted
        { s with elder := { s.elder with nodes := s.elder.stored, contributions := [], waiting := [] } }

/-- The report that is built at a time is accepted at that time. -/
def Accepts (sign : RelayReport → String) (verifyRelayReport : RelayReport → Bool) (C : RelayConfig) (onion : String)
    (s : Retry) (now : ℤ) (counter : RelayByteCounter) : Prop :=
  ∃ report next r deltaA deltaB,
    buildRelayReport sign counter.snapshot s.reporter.previous onion (some now) = .ok (report, next) ∧
    validRelayReport report = some r ∧ verifyRelayReport report = true ∧
    judge C now true r ((s.elder.prune C now).nodes.lookup r.onion) = .ok (deltaA, deltaB)

/-- There is a time from which on is accepted whatever the gateway has relayed until then. -/
def CanReport (sign : RelayReport → String) (verifyRelayReport : RelayReport → Bool) (C : RelayConfig)
    (onion : String) (s : Retry) : Prop :=
  ∃ now, s.clock ≤ now ∧ ∀ counter, WithinRate C s.reporter.counter counter (now - s.clock) →
    Accepts sign verifyRelayReport C onion s now counter

/-- **The condition.** Before the next millisecond is over, the time since the last answered report of this boot,
or since the start of the process, is no longer than an interval may be, and within a boot no longer than an entry
is kept; an accepted report is answered, in that time; the Elder restarts without a file only when the gateway has
no answered report of this boot; and dates and sequences do not run out. -/
def Timely (C : RelayConfig) (s : Retry) : RetryEvent → Prop
  | .passed clock => clock + 1 ≤ MAX_DATE ∧
      ∀ startMs, nextStart s.reporter.counter.snapshot s.reporter.previous = some startMs →
        clock + 1 - startMs ≤ C.maxIntervalMs ∧
        (sameBoot s.reporter.counter.snapshot s.reporter.previous = true → clock + 1 - startMs ≤ C.retentionMs)
  | .accepted r acked => acked = true ∧ s.clock + 1 - r.endAt ≤ C.maxIntervalMs ∧
      s.clock + 1 - r.endAt ≤ C.retentionMs ∧ r.sequence < 2 ^ 53 - 1
  | .restarted => C.statePath = true ∨ sameBoot s.reporter.counter.snapshot s.reporter.previous = false
  | _ => True

/-! ### What is accepted -/

section Judge

variable {C : RelayConfig} {r : ValidReport} {previous : Option RelayNode} {current : ℤ}

lemma withinRate_of_le {a b : ℕ} (h : 1000 * ((a : ℤ) + b) ≤ C.maxBytesPerSecond * (r.endAt - r.start)) :
    withinRate C r a b = .ok (a, b) := by
  have hceil := mul_le_mul_of_nonneg_left (le_ceilSeconds (r.endAt - r.start))
    (Nat.cast_nonneg C.maxBytesPerSecond : (0 : ℤ) ≤ _)
  have hle : (a : ℤ) + b ≤ ceilSeconds (r.endAt - r.start) * C.maxBytesPerSecond := by
    rw [mul_left_comm, mul_comm (C.maxBytesPerSecond : ℤ) (ceilSeconds _)] at hceil
    linarith
  simp only [withinRate, not_lt.mpr hle, if_false]

/-- A report that goes on from the entry of its boot. -/
lemma deltas_of_same {n : RelayNode} (hsequence : n.sequence < r.sequence) (hend : n.endAt = r.start)
    (hid : n.bootId = r.bootId) (hreset : r.occurred = false) (hA : n.agentToDestination ≤ r.currentA)
    (hB : n.destinationToAgent ≤ r.currentB)
    (hrate : 1000 * ((r.currentA + r.currentB : ℤ) - (n.agentToDestination + n.destinationToAgent)) ≤
      C.maxBytesPerSecond * (r.endAt - r.start)) :
    ∃ deltaA deltaB, deltas C r (some n) = .ok (deltaA, deltaB) := by
  have hback : ¬ (r.currentA < n.agentToDestination ∨ r.currentB < n.destinationToAgent) := by omega
  refine ⟨r.currentA - n.agentToDestination, r.currentB - n.destinationToAgent, ?_⟩
  simp only [deltas, not_le.mpr hsequence, not_lt.mpr hend.le, hid, hreset, hback, if_true, if_false,
    Bool.false_eq_true]
  refine withinRate_of_le ?_
  rw [Nat.cast_sub hA, Nat.cast_sub hB]
  linarith

/-- A reset after the entry of another boot, or with no entry. -/
lemma deltas_of_reset (hprevious : ∀ n, previous = some n → n.sequence < r.sequence ∧ n.endAt ≤ r.start ∧
      n.bootId ≠ r.bootId) (hreset : r.occurred = true)
    (hrate : 1000 * (r.currentA + r.currentB : ℤ) ≤ C.maxBytesPerSecond * (r.endAt - r.start)) :
    ∃ deltaA deltaB, deltas C r previous = .ok (deltaA, deltaB) := by
  refine ⟨r.currentA, r.currentB, ?_⟩
  cases previous with
  | none => simp [deltas, hreset, withinRate_of_le hrate]
  | some n =>
    obtain ⟨hsequence, hend, hid⟩ := hprevious n rfl
    simp [deltas, not_le.mpr hsequence, not_lt.mpr hend, hid, hreset, withinRate_of_le hrate]

/-- A report of an interval that has just ended. -/
lemma judge_of_now (hskew : 0 ≤ C.futureSkewMs) (hkept : 0 ≤ C.retentionMs)
    (hlong : current - r.start ≤ C.maxIntervalMs) (hnow : r.endAt = current) :
    judge C current true r previous = deltas C r previous := by
  have hfuture : ¬ current + C.futureSkewMs < r.endAt := by omega
  have hstale : ¬ r.endAt < current - C.retentionMs := by omega
  have hshort : ¬ C.maxIntervalMs < r.endAt - r.start := by omega
  simp only [judge, Bool.not_true, Bool.false_eq_true, hfuture, hstale, hshort, if_false]

end Judge

/-! ### What the heartbeat and the Elder have in common -/

/-- A state that was built, read: it is of the running process, and what was relayed since keeps to the rate, or of
one that ended before it. -/
structure Fits (C : RelayConfig) (clock : ℤ) (r : Reporter) (p : RelayReportState) (endAt : ℤ) (a b : ℕ) : Prop where
  intervalEnd : p.intervalEnd = some endAt
  agent : u64 p.agentToDestinationBytes = some a
  destination : u64 p.destinationToAgentBytes = some b
  past : endAt ≤ clock
  known : p.bootId ∈ r.boots
  hex : lowerHex 32 p.bootId = true
  same : p.bootId = r.counter.bootId → r.counter.startedAt ≤ endAt ∧ a ≤ r.counter.agentToDestination ∧
    b ≤ r.counter.destinationToAgent ∧
    1000 * ((r.counter.agentToDestination + r.counter.destinationToAgent : ℤ) - (a + b)) ≤
      C.maxBytesPerSecond * (clock - endAt)
  other : p.bootId ≠ r.counter.bootId → endAt ≤ r.counter.startedAt

/-- What the reporter keeps of its reports and of the time. -/
structure Timed (C : RelayConfig) (onion : String) (clock : ℤ) (r : Reporter) : Prop where
  running : r.counter.bootId ∈ r.boots
  epoch : 0 ≤ r.counter.startedAt
  started : r.counter.startedAt ≤ clock
  date : clock + 1 ≤ MAX_DATE
  rate : 1000 * (r.counter.agentToDestination + r.counter.destinationToAgent : ℤ) ≤
    C.maxBytesPerSecond * (clock - r.counter.startedAt)
  built : ∀ x ∈ r.built, x.1.onion = onion ∧ x.2 = stateOf x.1 ∧ 1 ≤ x.2.sequence ∧ ∃ endAt a b, Fits C clock r x.2 endAt a b
  previous : ∀ p, r.previous = some p → (∃ report, (report, p) ∈ r.built) ∧ p.sequence < 2 ^ 53 - 1
  timely : ∀ startMs, nextStart r.counter.snapshot r.previous = some startMs → clock + 1 - startMs ≤ C.maxIntervalMs ∧
    (sameBoot r.counter.snapshot r.previous = true → clock + 1 - startMs ≤ C.retentionMs)

/-- The entry of a report that the heartbeat remembers. -/
structure EntryOf (n : RelayNode) (p : RelayReportState) : Prop where
  sequence : n.sequence = p.sequence
  bootId : n.bootId = p.bootId
  endAt : p.intervalEnd = some n.endAt
  agent : u64 p.agentToDestinationBytes = some n.agentToDestination
  destination : u64 p.destinationToAgentBytes = some n.destinationToAgent

/-- The entry of the onion is that of the report which the heartbeat remembers, and it is there if the report is of
the running process. -/
structure Agrees (C : RelayConfig) (onion : String) (r : Reporter) (elder : Aggregator) : Prop where
  entry : ∀ n, elder.nodes.lookup onion = some n → ∃ p, r.previous = some p ∧ EntryOf n p
  kept : ∀ p, r.previous = some p → p.bootId = r.counter.bootId → ∃ n, elder.nodes.lookup onion = some n
  stored : Stored C elder

section Start

variable {c c' : RelayByteCounter} {previous : Option RelayReportState}

lemma nextStart_later (h : c.Later c') : nextStart c'.snapshot previous = nextStart c.snapshot previous := by
  cases previous <;> simp [nextStart, RelayByteCounter.snapshot, h.bootId, h.startedAt]

lemma sameBoot_later (h : c.Later c') : sameBoot c'.snapshot previous = sameBoot c.snapshot previous := by
  simp [sameBoot, RelayByteCounter.snapshot, h.bootId]

end Start

section Timed

variable {sign : RelayReport → String} {C : RelayConfig} {onion : String} {clock clock' : ℤ} {r : Reporter}

lemma Fits.pass {p : RelayReportState} {endAt : ℤ} {a b : ℕ} {c : RelayByteCounter} (h : Fits C clock r p endAt a b)
    (hle : clock ≤ clock') (hrate : WithinRate C r.counter c (clock' - clock)) :
    Fits C clock' { r with counter := c } p endAt a b := by
  obtain ⟨hlater, hrate⟩ := hrate
  refine ⟨h.intervalEnd, h.agent, h.destination, h.past.trans hle, h.known, h.hex, ?_, ?_⟩
  · intro hid
    have hA := hlater.agent
    have hB := hlater.destination
    obtain ⟨hstart, ha, hb, hsince⟩ := h.same (hid.trans hlater.bootId)
    refine ⟨hlater.startedAt.le.trans hstart, ha.trans hA, hb.trans hB, ?_⟩
    show 1000 * ((c.agentToDestination + c.destinationToAgent : ℤ) - (a + b)) ≤ C.maxBytesPerSecond * (clock' - endAt)
    rw [show clock' - endAt = (clock' - clock) + (clock - endAt) by ring, mul_add]
    linarith
  · intro hid
    exact (h.other fun hid' => hid (hid'.trans hlater.bootId.symm)).trans hlater.startedAt.ge

lemma Timed.pass {c : RelayByteCounter} (h : Timed C onion clock r) (hle : clock ≤ clock')
    (hrate : WithinRate C r.counter c (clock' - clock)) (hdate : clock' + 1 ≤ MAX_DATE)
    (htimely : ∀ startMs, nextStart r.counter.snapshot r.previous = some startMs →
      clock' + 1 - startMs ≤ C.maxIntervalMs ∧
        (sameBoot r.counter.snapshot r.previous = true → clock' + 1 - startMs ≤ C.retentionMs)) :
    Timed C onion clock' { r with counter := c } where
  running := by
    rw [hrate.1.bootId]
    exact h.running
  epoch := h.epoch.trans hrate.1.startedAt.ge
  started := hrate.1.startedAt.le.trans (h.started.trans hle)
  date := hdate
  rate := by
    have hsince := h.rate
    have hgrown := hrate.2
    show 1000 * (c.agentToDestination + c.destinationToAgent : ℤ) ≤ C.maxBytesPerSecond * (clock' - c.startedAt)
    rw [hrate.1.startedAt, show clock' - r.counter.startedAt = (clock' - clock) + (clock - r.counter.startedAt) by ring,
      mul_add]
    linarith
  built x hx := by
    obtain ⟨ho, hstate, hsequence, endAt, a, b, hfits⟩ := h.built x hx
    exact ⟨ho, hstate, hsequence, endAt, a, b, hfits.pass hle hrate⟩
  previous := h.previous
  timely startMs hstart := by
    rw [nextStart_later hrate.1] at hstart
    rw [sameBoot_later hrate.1]
    exact htimely startMs hstart

lemma Timed.known {p : RelayReportState} (h : Timed C onion clock r) (hp : r.previous = some p) :
    p.bootId ∈ r.boots := by
  obtain ⟨⟨report, hbuilt⟩, -⟩ := h.previous p hp
  obtain ⟨-, -, -, endAt, a, b, hfits⟩ := h.built _ hbuilt
  exact hfits.known

/-- After a restart no report that was built is of the running process. -/
lemma Timed.reboot {bootId : String} (h : Timed C onion clock r) (hhex : lowerHex 32 bootId = true)
    (hfresh : bootId ∉ r.boots) (hlong : 1 ≤ C.maxIntervalMs) :
    Timed C onion clock { r with counter := .boot bootId clock hhex, boots := r.boots.insert bootId clock } where
  running := AList.mem_insert _ |>.mpr (.inl rfl)
  epoch := h.epoch.trans h.started
  started := le_refl _
  date := h.date
  rate := by simp [RelayByteCounter.boot]
  built x hx := by
    obtain ⟨ho, hstate, hsequence, endAt, a, b, hfits⟩ := h.built x hx
    have hne : x.2.bootId ≠ bootId := fun hid => hfresh (hid ▸ hfits.known)
    exact ⟨ho, hstate, hsequence, endAt, a, b, hfits.intervalEnd, hfits.agent, hfits.destination, hfits.past,
      (AList.mem_insert _).mpr (.inr hfits.known), hfits.hex, fun hid => absurd hid hne, fun _ => hfits.past⟩
  previous := h.previous
  timely startMs hstart := by
    have hother : sameBoot (RelayByteCounter.boot bootId clock hhex).snapshot r.previous = false := by
      cases hp : r.previous with
      | none => rfl
      | some p =>
        have hne : p.bootId ≠ bootId := fun hid => hfresh (hid ▸ h.known hp)
        simpa [sameBoot, RelayByteCounter.snapshot, RelayByteCounter.boot] using hne
    have hclock : startMs = clock := by
      cases hp : r.previous with
      | none =>
        rw [hp] at hstart
        exact (Option.some.inj hstart).symm
      | some p =>
        have hne : p.bootId ≠ bootId := fun hid => hfresh (hid ▸ h.known hp)
        rw [hp] at hstart
        simp only [nextStart, RelayByteCounter.snapshot, RelayByteCounter.boot, hne, if_false] at hstart
        exact (Option.some.inj hstart).symm
    refine ⟨by omega, fun hsame => ?_⟩
    rw [hother] at hsame
    cases hsame

lemma Timed.nextSequence_pos (h : Timed C onion clock r) : 1 ≤ nextSequence r.previous := by
  cases hp : r.previous with
  | none => simp [nextSequence]
  | some p =>
    obtain ⟨⟨last, hlast⟩, -⟩ := h.previous p hp
    obtain ⟨-, -, hpos, -⟩ := h.built _ hlast
    have hpos : 1 ≤ p.sequence := hpos
    show 1 ≤ p.sequence + 1
    omega

lemma Timed.build {report : RelayReport} {next : RelayReportState} (h : Timed C onion clock r)
    (hbuild : buildRelayReport sign r.counter.snapshot r.previous onion (some clock) = .ok (report, next)) :
    Timed C onion clock { r with built := r.built ++ [(report, next)] } := by
  obtain ⟨startMs, endMs, hnow, -, -, rfl, rfl⟩ := buildRelayReport_ok hbuild
  obtain rfl := Option.some.inj hnow
  have hsequence := h.nextSequence_pos
  refine ⟨h.running, h.epoch, h.started, h.date, h.rate, ?_, ?_, h.timely⟩
  · intro x hx
    rcases List.mem_append.mp hx with hx | hx
    · obtain ⟨ho, hstate, hpos, endAt, a, b, hfits⟩ := h.built x hx
      exact ⟨ho, hstate, hpos, endAt, a, b, hfits.intervalEnd, hfits.agent, hfits.destination, hfits.past, hfits.known,
        hfits.hex, hfits.same, hfits.other⟩
    · obtain rfl := List.mem_singleton.mp hx
      refine ⟨rfl, rfl, hsequence, clock, r.counter.agentToDestination, r.counter.destinationToAgent, rfl,
        u64_toString r.counter.agent_le, u64_toString r.counter.destination_le, le_refl _, h.running,
        r.counter.bootId_hex, fun _ => ⟨h.started, le_refl _, le_refl _, by simp⟩, fun hne => absurd rfl hne⟩
  · intro p hp
    obtain ⟨⟨last, hlast⟩, hlt⟩ := h.previous p hp
    exact ⟨⟨last, List.mem_append_left _ hlast⟩, hlt⟩

/-- An answer in time. -/
lemma Timed.answered {report : RelayReport} {next : RelayReportState} {v : ValidReport} (h : Timed C onion clock r)
    (hbuilt : (report, next) ∈ r.built) (hvalid : validRelayReport report = some v)
    (hlong : clock + 1 - v.endAt ≤ C.maxIntervalMs) (hkept : clock + 1 - v.endAt ≤ C.retentionMs)
    (hlast : v.sequence < 2 ^ 53 - 1) : Timed C onion clock { r with previous := some next } := by
  obtain ⟨-, hstate, -, endAt, a, b, hfits⟩ := h.built _ hbuilt
  obtain rfl : next = stateOf report := hstate
  obtain ⟨-, -, hsequence, -, hend, -, -, -⟩ := validRelayReport_some hvalid
  obtain rfl : v.endAt = endAt := Option.some.inj (hend.symm.trans hfits.intervalEnd)
  refine ⟨h.running, h.epoch, h.started, h.date, h.rate, fun x hx => ?_, ?_, ?_⟩
  · obtain ⟨ho, hs, hpos, e, a', b', hf⟩ := h.built x hx
    exact ⟨ho, hs, hpos, e, a', b', hf.intervalEnd, hf.agent, hf.destination, hf.past, hf.known, hf.hex, hf.same, hf.other⟩
  · intro p hp
    obtain rfl := Option.some.inj hp
    refine ⟨⟨report, hbuilt⟩, ?_⟩
    show report.sequence < 2 ^ 53 - 1
    omega
  · intro startMs hstart
    have hstart : (if (stateOf report).bootId = r.counter.bootId then (stateOf report).intervalEnd
      else some r.counter.startedAt) = some startMs := hstart
    by_cases hid : (stateOf report).bootId = r.counter.bootId
    · rw [if_pos hid] at hstart
      obtain rfl : v.endAt = startMs := Option.some.inj (hfits.intervalEnd.symm.trans hstart)
      exact ⟨hlong, fun _ => hkept⟩
    · -- the report is of a process that has ended
      rw [if_neg hid] at hstart
      have hbefore := hfits.other hid
      obtain rfl := Option.some.inj hstart
      refine ⟨by omega, fun hsame => ?_⟩
      simp [sameBoot, RelayByteCounter.snapshot, hid] at hsame

end Timed

section Agrees

variable {C : RelayConfig} {onion : String} {r r' : Reporter} {elder elder' : Aggregator} {clock : ℤ}

lemma Agrees.of_eq (h : Agrees C onion r elder) (hprevious : r'.previous = r.previous)
    (hid : r'.counter.bootId = r.counter.bootId) : Agrees C onion r' elder := by
  refine ⟨?_, ?_, h.stored⟩
  · rw [hprevious]
    exact h.entry
  · rw [hprevious, hid]
    exact h.kept

lemma Agrees.prune {current : ℤ} (h : Agrees C onion r elder) (ht : Timed C onion clock r) (hle : current ≤ clock) :
    Agrees C onion r (elder.prune C current) := by
  refine ⟨?_, ?_, h.stored.prune current⟩
  · intro n hn
    rw [Aggregator.nodes_prune, Table.lookup_keep_eq_some] at hn
    exact h.entry n hn.1
  · intro p hp hid
    obtain ⟨n, hn⟩ := h.kept p hp hid
    obtain ⟨p', hp', hof⟩ := h.entry n hn
    obtain rfl : p = p' := Option.some.inj (hp.symm.trans hp')
    have hstart : nextStart r.counter.snapshot r.previous = some n.endAt := by
      simp [hp, nextStart, RelayByteCounter.snapshot, hid, hof.endAt]
    have hsame : sameBoot r.counter.snapshot r.previous = true := by
      simp [hp, sameBoot, RelayByteCounter.snapshot, hid]
    have hkept := (ht.timely _ hstart).2 hsame
    refine ⟨n, ?_⟩
    rw [Aggregator.nodes_prune, Table.lookup_keep_eq_some]
    exact ⟨hn, decide_eq_true (by omega)⟩

lemma Agrees.others {v : ValidReport} (h : Agrees C onion r elder) (hne : v.onion ≠ onion) (deltaA deltaB : ℕ) :
    Agrees C onion r (elder.record C v deltaA deltaB) := by
  have hlookup : (elder.record C v deltaA deltaB).nodes.lookup onion = elder.nodes.lookup onion := by
    simp only [Aggregator.record, Aggregator.nodes_checkpoint]
    exact AList.lookup_insert_ne (Ne.symm hne)
  refine ⟨?_, ?_, h.stored.record _ _ _⟩
  · rw [hlookup]
    exact h.entry
  · rw [hlookup]
    exact h.kept

lemma Agrees.restart (h : Agrees C onion r elder)
    (hfile : C.statePath = true ∨ sameBoot r.counter.snapshot r.previous = false) :
    Agrees C onion r { elder with nodes := elder.stored, contributions := [], waiting := [] } := by
  have hstored : elder.stored = if C.statePath then elder.nodes else ∅ := h.stored
  refine ⟨?_, ?_, h.stored.restart⟩
  · intro n hn
    simp only [hstored] at hn
    split at hn
    · exact h.entry n hn
    · simp at hn
  · intro p hp hid
    rcases hfile with hpath | hother
    · simp only [hstored, hpath, if_true]
      exact h.kept p hp hid
    · simp [hp, sameBoot, RelayByteCounter.snapshot, hid] at hother

lemma Agrees.answered {report : RelayReport} {next : RelayReportState} {v : ValidReport} (h : Agrees C onion r elder)
    (ht : Timed C onion clock r) (hbuilt : (report, next) ∈ r.built) (hvalid : validRelayReport report = some v)
    (deltaA deltaB : ℕ) : Agrees C onion { r with previous := some next } (elder.record C v deltaA deltaB) := by
  obtain ⟨ho, hstate, -, -⟩ := ht.built _ hbuilt
  obtain rfl : next = stateOf report := hstate
  obtain ⟨honion, hid, hsequence, -, hend, ha, hb, -⟩ := validRelayReport_some hvalid
  have hlookup : (elder.record C v deltaA deltaB).nodes.lookup onion =
      some ⟨v.sequence, v.bootId, v.endAt, v.currentA, v.currentB⟩ := by
    simp only [Aggregator.record, Aggregator.nodes_checkpoint]
    rw [show onion = v.onion from (honion.trans ho).symm]
    exact AList.lookup_insert _
  refine ⟨?_, fun _ _ _ => ⟨_, hlookup⟩, h.stored.record _ _ _⟩
  intro n hn
  obtain rfl := Option.some.inj (hlookup.symm.trans hn)
  exact ⟨_, rfl, hsequence, hid, hend, ha, hb⟩

end Agrees

/-! ### Runs under the condition -/

section Run

variable {sign : RelayReport → String} {verify : RelayReport → Bool} {C : RelayConfig} {onion : String}
  {s s' : Retry} {e : RetryEvent}

/-- A step in time keeps the heartbeat and the Elder in agreement. -/
lemma retry_step (hlong : 1 ≤ C.maxIntervalMs) (ht : Timed C onion s.clock s.reporter)
    (ha : Agrees C onion s.reporter s.elder) (hst : RetryStep sign verify C onion s e s') (hin : Timely C s e) :
    Timed C onion s'.clock s'.reporter ∧ Agrees C onion s'.reporter s'.elder := by
  cases hst with
  | pass clock hle hrate => exact ⟨ht.pass hle hrate hin.1 hin.2, ha.of_eq rfl hrate.1.bootId⟩
  | reboot hhex hfresh =>
    refine ⟨ht.reboot hhex hfresh hlong, ha.entry, fun p hp hid => ?_, ha.stored⟩
    have hknown := ht.known hp
    rw [hid] at hknown
    exact absurd hknown hfresh
  | build report next hbuild => exact ⟨ht.build hbuild, ha.of_eq rfl rfl⟩
  | reject current announced hle hbuilt hvalid hjudge => exact ⟨ht, ha.prune ht hle⟩
  | accept current announced acked deltaA deltaB hle hbuilt hvalid hverify hjudge =>
    obtain ⟨rfl, hshort, hkept, hlast⟩ := hin
    exact ⟨ht.answered hbuilt hvalid hshort hkept hlast, (ha.prune ht hle).answered ht hbuilt hvalid _ _⟩
  | others deltaA deltaB hne => exact ⟨ht, ha.others hne deltaA deltaB⟩
  | prune now hle => exact ⟨ht, ha.prune ht hle⟩
  | restart _ => exact ⟨ht, ha.restart hin⟩

lemma retry_start {bootId : String} {now : ℤ} (h : lowerHex 32 bootId = true) (hepoch : 0 ≤ now)
    (hdate : now + 1 ≤ MAX_DATE) (hlong : 1 ≤ C.maxIntervalMs) :
    Timed C onion now (Retry.start bootId now h).reporter ∧
      Agrees C onion (Retry.start bootId now h).reporter (Retry.start bootId now h).elder := by
  refine ⟨⟨AList.mem_insert _ |>.mpr (.inl rfl), hepoch, le_refl _, hdate, by simp [Retry.start, Reporter.start,
    RelayByteCounter.boot], fun x hx => by simp [Retry.start, Reporter.start] at hx,
    fun p hp => by simp [Retry.start, Reporter.start] at hp, ?_⟩, ?_⟩
  · intro startMs hstart
    obtain rfl : now = startMs := Option.some.inj hstart
    exact ⟨by omega, fun hsame => by simp [Retry.start, Reporter.start, sameBoot] at hsame⟩
  · refine ⟨fun n hn => by simp [Retry.start, Aggregator.start] at hn,
      fun p hp => by simp [Retry.start, Reporter.start] at hp, ?_⟩
    simp [Stored, Retry.start, Aggregator.start]

/-- A report whose counters the Elder takes is accepted. -/
lemma accepts_of_deltas (hsign : ∀ report, anyHex 128 (sign report) = true)
    (hverify : ∀ unsigned, unsigned.onion = onion → (validRelayReport (signedReport sign unsigned)).isSome →
      verify (signedReport sign unsigned) = true)
    (hskew : 0 ≤ C.futureSkewMs) (hretention : 0 ≤ C.retentionMs) {now startMs : ℤ} {c : RelayByteCounter}
    (hprevious : ∀ p, s.reporter.previous = some p → validReportState p = true)
    (hpos : 1 ≤ nextSequence s.reporter.previous) (hsafe : nextSequence s.reporter.previous ≤ 2 ^ 53 - 1)
    (hstart : nextStart c.snapshot s.reporter.previous = some startMs) (hepoch : 0 ≤ startMs) (hlt : startMs < now)
    (hdate : now ≤ MAX_DATE) (hback : rolledBack c.snapshot s.reporter.previous = false)
    (hlong : now - startMs ≤ C.maxIntervalMs)
    (hd : ∃ deltaA deltaB, deltas C ⟨onion, c.bootId, nextSequence s.reporter.previous, startMs, now,
        c.agentToDestination, c.destinationToAgent, !sameBoot c.snapshot s.reporter.previous, hlt⟩
      ((s.elder.prune C now).nodes.lookup onion) = .ok (deltaA, deltaB)) :
    Accepts sign verify C onion s now c := by
  obtain ⟨deltaA, deltaB, hd⟩ := hd
  have hlow : -MAX_DATE ≤ startMs := le_trans (by decide) hepoch
  have hvalid := c.validRelayReport_signed hsign onion hlt hpos hsafe
  refine ⟨_, _, _, deltaA, deltaB, buildRelayReport_eq c.validRelayCounterState_snapshot hprevious hstart hlt hback hlow
    hdate, hvalid, hverify _ rfl (by rw [hvalid]; rfl), ?_⟩
  exact Eq.trans (judge_of_now hskew hretention hlong rfl) hd

/-- When the heartbeat and the Elder agree, the report of the next millisecond is accepted. -/
lemma canReport_of_agrees (hsign : ∀ report, anyHex 128 (sign report) = true)
    (hverify : ∀ unsigned, unsigned.onion = onion → (validRelayReport (signedReport sign unsigned)).isSome →
      verify (signedReport sign unsigned) = true)
    (hskew : 0 ≤ C.futureSkewMs) (hretention : 0 ≤ C.retentionMs) (ht : Timed C onion s.clock s.reporter)
    (ha : Agrees C onion s.reporter s.elder) : CanReport sign verify C onion s := by
  refine ⟨s.clock + 1, by omega, fun c hrate => ?_⟩
  have hdate := ht.date
  have hstarted := ht.started
  have hlater := hrate.1
  have hsince : 1000 * (c.agentToDestination + c.destinationToAgent : ℤ) ≤
      C.maxBytesPerSecond * (s.clock + 1 - s.reporter.counter.startedAt) := by
    have hbase := ht.rate
    have hgrown := hrate.2
    rw [show s.clock + 1 - s.reporter.counter.startedAt = (s.clock + 1 - s.clock) +
      (s.clock - s.reporter.counter.startedAt) by ring, mul_add]
    linarith
  have hnodes : ∀ n, (s.elder.prune C (s.clock + 1)).nodes.lookup onion = some n →
      ∃ p, s.reporter.previous = some p ∧ EntryOf n p := by
    intro n hn
    rw [Aggregator.nodes_prune, Table.lookup_keep_eq_some] at hn
    exact ha.entry n hn.1
  have hepoch := ht.epoch
  have hpos := ht.nextSequence_pos
  cases hp : s.reporter.previous with
  | none =>
    have hstart : nextStart c.snapshot s.reporter.previous = some c.startedAt := by simp [hp, nextStart,
      RelayByteCounter.snapshot]
    have htimely := ht.timely s.reporter.counter.startedAt (by rw [← nextStart_later hlater, hstart, hlater.startedAt])
    rw [← hlater.startedAt] at hepoch hstarted htimely hsince
    refine accepts_of_deltas hsign hverify hskew hretention (fun p hp' => by simp [hp] at hp') hpos
      (by rw [hp]; decide) hstart hepoch (by omega) hdate (by simp [hp, rolledBack]) htimely.1 ?_
    refine deltas_of_reset (fun n hn => ?_) (by simp [hp, sameBoot]) hsince
    obtain ⟨p, hp', -⟩ := hnodes n hn
    simp [hp] at hp'
  | some p =>
    obtain ⟨⟨report, hbuilt⟩, hlast⟩ := ht.previous p hp
    obtain ⟨-, hstate, hsequence, endAt, a, b, hfits⟩ := ht.built _ hbuilt
    have hsequence : 1 ≤ p.sequence := hsequence
    have hstate : p = stateOf report := hstate
    have hfits : Fits C s.clock s.reporter p endAt a b := hfits
    have hnow := hfits.pass (show s.clock ≤ s.clock + 1 by omega) hrate
    have hpast := hfits.past
    have hnext : nextSequence s.reporter.previous = p.sequence + 1 := by rw [hp]; rfl
    have hvalid : ∀ q, s.reporter.previous = some q → validReportState q = true := by
      intro q hq
      obtain rfl := Option.some.inj (hp.symm.trans hq)
      have hschema : p.schema = RELAY_REPORT_STATE_SCHEMA := by rw [hstate]; rfl
      simp only [validReportState, hschema, hfits.hex, hfits.intervalEnd, hfits.agent, hfits.destination]
      simp
      omega
    have hentry : ∀ n, (s.elder.prune C (s.clock + 1)).nodes.lookup onion = some n →
        n = ⟨p.sequence, p.bootId, endAt, a, b⟩ := by
      intro n hn
      obtain ⟨q, hq, hof⟩ := hnodes n hn
      obtain rfl := Option.some.inj (hp.symm.trans hq)
      have hend := Option.some.inj (hfits.intervalEnd.symm.trans hof.endAt)
      have hA := Option.some.inj (hfits.agent.symm.trans hof.agent)
      have hB := Option.some.inj (hfits.destination.symm.trans hof.destination)
      rw [hend, hA, hB, ← hof.sequence, ← hof.bootId]
    by_cases hid : p.bootId = c.bootId
    · -- the interval goes on where the last one ended
      obtain ⟨hafter, hA, hB, hgrown⟩ := hnow.same hid
      have hstart : nextStart c.snapshot s.reporter.previous = some endAt := by
        simp [hp, nextStart, RelayByteCounter.snapshot, hid, hfits.intervalEnd]
      have hsame : sameBoot c.snapshot s.reporter.previous = true := by
        simp [hp, sameBoot, RelayByteCounter.snapshot, hid]
      obtain ⟨hlong, hkept⟩ := ht.timely endAt (by rw [← nextStart_later hlater, hstart])
      have hkept := hkept (by rw [← sameBoot_later hlater]; exact hsame)
      obtain ⟨n, hn⟩ := ha.kept p hp (hid.trans hlater.bootId)
      have hpruned : (s.elder.prune C (s.clock + 1)).nodes.lookup onion = some n := by
        obtain ⟨q, hq, hof⟩ := ha.entry n hn
        obtain rfl := Option.some.inj (hp.symm.trans hq)
        have hend := Option.some.inj (hfits.intervalEnd.symm.trans hof.endAt)
        rw [Aggregator.nodes_prune, Table.lookup_keep_eq_some]
        exact ⟨hn, decide_eq_true (by omega)⟩
      have hback : rolledBack c.snapshot s.reporter.previous = false := by
        have hA' : a ≤ c.agentToDestination := hA
        have hB' : b ≤ c.destinationToAgent := hB
        simp only [hp, rolledBack, RelayByteCounter.snapshot, u64_toString c.agent_le, u64_toString c.destination_le,
          hfits.agent, hfits.destination, Option.getD_some, not_lt.mpr hA', not_lt.mpr hB']
        simp
      have hafter : c.startedAt ≤ endAt := hafter
      rw [← hlater.startedAt] at hepoch
      refine accepts_of_deltas hsign hverify hskew hretention hvalid hpos (by omega) hstart (by omega) (by omega) hdate
        hback hlong ?_
      rw [hpruned, hentry n hpruned]
      refine deltas_of_same ?_ rfl hid (by simp [hsame]) hA hB hgrown
      show p.sequence < nextSequence s.reporter.previous
      omega
    · -- a reset, after the report of the process before
      have hbefore : endAt ≤ c.startedAt := hnow.other hid
      have hother : sameBoot c.snapshot s.reporter.previous = false := by
        simp [hp, sameBoot, RelayByteCounter.snapshot, hid]
      have hstart : nextStart c.snapshot s.reporter.previous = some c.startedAt := by
        simp [hp, nextStart, RelayByteCounter.snapshot, hid]
      have htimely := ht.timely s.reporter.counter.startedAt
        (by rw [← nextStart_later hlater, hstart, hlater.startedAt])
      rw [← hlater.startedAt] at hepoch hstarted htimely hsince
      refine accepts_of_deltas hsign hverify hskew hretention hvalid hpos (by omega) hstart hepoch (by omega) hdate
        (by simp [hp, rolledBack, RelayByteCounter.snapshot, hid]) htimely.1 ?_
      refine deltas_of_reset (fun n hn => ?_) (by simp [hother]) hsince
      obtain rfl := hentry n hn
      refine ⟨?_, hbefore, hid⟩
      show p.sequence < nextSequence s.reporter.previous
      omega

end Run

/-- **A reporter is never refused forever under the condition.** Whatever was relayed within the rate, and whatever
other onions sent, after every run in time some report is accepted. -/
theorem reporter_can_report {sign : RelayReport → String} {verify : RelayReport → Bool} {C : RelayConfig}
    {onion : String} (hsign : ∀ report, anyHex 128 (sign report) = true)
    (hverify : ∀ unsigned, unsigned.onion = onion → (validRelayReport (signedReport sign unsigned)).isSome →
      verify (signedReport sign unsigned) = true)
    (hskew : 0 ≤ C.futureSkewMs) (hretention : 0 ≤ C.retentionMs) (hlong : 1 ≤ C.maxIntervalMs) {bootId : String}
    {now : ℤ} (hhex : lowerHex 32 bootId = true) (hepoch : 0 ≤ now) (hdate : now + 1 ≤ MAX_DATE)
    {tr : List RetryEvent} {s : Retry}
    (h : Run (Restrict (RetryStep sign verify C onion) (Timely C)) (.start bootId now hhex) tr s) :
    CanReport sign verify C onion s := by
  obtain ⟨ht, ha⟩ := h.invariant_state
    (I := fun s => Timed C onion s.clock s.reporter ∧ Agrees C onion s.reporter s.elder)
    (retry_start hhex hepoch hdate hlong) fun t e u hi hst => retry_step hlong hi.1 hi.2 hst.2 hst.1
  exact canReport_of_agrees hsign hverify hskew hretention ht ha

/-! ### An outage, and an answer that is lost -/

section Refused

variable {sign : RelayReport → String} {verify : RelayReport → Bool} {C : RelayConfig} {onion : String} {s : Retry}
  {now startMs : ℤ} {c : RelayByteCounter}

lemma judge_short {r : ValidReport} {previous : Option RelayNode} {current : ℤ} {announced : Bool} {deltaA deltaB : ℕ}
    (h : judge C current announced r previous = .ok (deltaA, deltaB)) : r.endAt - r.start ≤ C.maxIntervalMs := by
  unfold judge at h
  split at h
  · cases h
  split at h
  · cases h
  split at h
  · cases h
  split at h
  · cases h
  · next hle => exact not_lt.mp hle

/-- What an accepted report would be. -/
lemma Accepts.report (h : Accepts sign verify C onion s now c)
    (hstart : nextStart c.snapshot s.reporter.previous = some startMs) :
    ∃ r deltaA deltaB, r.onion = onion ∧ r.start = startMs ∧ r.endAt = now ∧
      r.sequence = nextSequence s.reporter.previous ∧ now - startMs ≤ C.maxIntervalMs ∧
      deltas C r ((s.elder.prune C now).nodes.lookup onion) = .ok (deltaA, deltaB) := by
  obtain ⟨report, next, r, deltaA, deltaB, hbuild, hvalid, -, hjudge⟩ := h
  obtain ⟨startMs', endMs, hnow, hstart', -, rfl, -⟩ := buildRelayReport_ok hbuild
  obtain rfl := Option.some.inj hnow
  obtain rfl := Option.some.inj (hstart.symm.trans hstart')
  obtain ⟨ho, -, hsequence, hs, hend, -, -, -⟩ := validRelayReport_some hvalid
  have hs : startMs = r.start := Option.some.inj hs
  have hend : now = r.endAt := Option.some.inj hend
  have ho : r.onion = onion := ho
  refine ⟨r, deltaA, deltaB, ho, hs.symm, hend.symm, hsequence, ?_, by rw [← ho]; exact judge_ok hjudge⟩
  rw [hs, hend]
  exact judge_short hjudge

/-- The interval has become too long. -/
lemma not_accepts_of_long (hstart : nextStart c.snapshot s.reporter.previous = some startMs)
    (hlong : C.maxIntervalMs < now - startMs) : ¬ Accepts sign verify C onion s now c := by
  intro h
  obtain ⟨-, -, -, -, -, -, -, hle, -⟩ := h.report hstart
  omega

/-- The Elder knows of a report with the number of the next. -/
lemma not_accepts_of_known {n : RelayNode} (hstart : nextStart c.snapshot s.reporter.previous = some startMs)
    (hn : s.elder.nodes.lookup onion = some n) (hnumber : nextSequence s.reporter.previous ≤ n.sequence)
    (hkept : now - C.retentionMs ≤ n.endAt) : ¬ Accepts sign verify C onion s now c := by
  intro h
  obtain ⟨r, deltaA, deltaB, -, -, -, hsequence, -, hd⟩ := h.report hstart
  have hpruned : (s.elder.prune C now).nodes.lookup onion = some n := by
    rw [Aggregator.nodes_prune, Table.lookup_keep_eq_some]
    exact ⟨hn, decide_eq_true hkept⟩
  have := ((deltas_ok hd).1 n hpruned).1
  omega

end Refused

def sampleBootId : String := "000102030405060708090a0b0c0d0e0f"

/-- The run of a gateway until its first report is accepted, after an hour. -/
lemma run_first (acked : Bool) (cond : Retry → RetryEvent → Prop)
    (hpassed : ∀ s, nextStart s.reporter.counter.snapshot s.reporter.previous = some 0 → s.reporter.previous = none →
      cond s (.passed 3600000))
    (hbuilt : ∀ s, cond s .built)
    (haccepted : ∀ s, s.clock = 3600000 →
      cond s (.accepted (sampleValid 1 0 3600000 1000 true (by decide)) acked)) :
    ∃ tr s, Run (Restrict (RetryStep (fun _ => zeroSignature) (fun _ => true) (RelayConfig.default true) zeroOnion) cond)
        (.start sampleBootId 0 (by decide)) tr s ∧ s.clock = 3600000 ∧
      s.reporter.counter = sampleCounter 3600000 1000 (by decide) (by decide) ∧
      s.reporter.previous = (if acked then some (stateOf (sampleReport 1 0 3600000 "1000" true)) else none) ∧
      s.elder.nodes.lookup zeroOnion = some ⟨1, sampleBootId, 3600000, 1000, 0⟩ ∧
      ∀ e ∈ tr, ∀ r b, e = .accepted r b → b = acked := by
  have hpass := (Run.nil : Run (Restrict (RetryStep (fun _ => zeroSignature) (fun _ => true) (RelayConfig.default true)
    zeroOnion) cond) (.start sampleBootId 0 (by decide)) [] _).snoc
    ⟨hpassed _ rfl rfl, .pass (c := sampleCounter 3600000 1000 (by decide) (by decide)) 3600000 (by decide)
      ⟨⟨rfl, rfl, by decide, by decide, by decide⟩, by decide⟩⟩
  have hbuild := hpass.snoc ⟨hbuilt _, .build (sampleReport 1 0 3600000 "1000" true)
    (stateOf (sampleReport 1 0 3600000 "1000" true)) (by decide +kernel)⟩
  have haccept := hbuild.snoc ⟨haccepted _ rfl, .accept (r := sampleValid 1 0 3600000 1000 true (by decide)) 3600000
    true acked 1000 0 (by decide) List.mem_cons_self (by decide +kernel) rfl (by decide +kernel)⟩
  refine ⟨_, _, haccept, rfl, rfl, rfl, rfl, ?_⟩
  intro e he r b hacc
  subst hacc
  simp only [List.nil_append, List.cons_append, List.mem_cons, reduceCtorEq, RetryEvent.accepted.injEq,
    List.not_mem_nil, or_false, false_or] at he
  exact he.2

/-- After a first report that is answered. -/
theorem reporter_can_report_first : ∃ tr s,
    Run (Restrict (RetryStep (fun _ => zeroSignature) (fun _ => true) (RelayConfig.default true) zeroOnion)
      (Timely (RelayConfig.default true))) (.start sampleBootId 0 (by decide)) tr s ∧
    s.clock = 3600000 ∧ CanReport (fun _ => zeroSignature) (fun _ => true) (RelayConfig.default true) zeroOnion s := by
  obtain ⟨tr, s, hrun, hclock, -⟩ := run_first true (Timely (RelayConfig.default true))
    (fun s hstart hnone => ⟨by decide, fun startMs hs => by
      obtain rfl := Option.some.inj (hstart.symm.trans hs)
      exact ⟨by decide, fun hsame => by simp [hnone, sameBoot] at hsame⟩⟩)
    (fun _ => trivial) fun s hclock => ⟨rfl, by rw [hclock]; decide, by rw [hclock]; decide, by decide⟩
  exact ⟨tr, s, hrun, hclock, reporter_can_report (fun _ => by decide +kernel) (fun _ _ _ => rfl) (by decide) (by decide)
    (by decide) (by decide) (by decide) (by decide) hrun⟩

/-- Refused at all times, whatever is relayed meanwhile. -/
def RefusedForever (s : Retry) : Prop :=
  ∀ now c, s.clock ≤ now → s.reporter.counter.Later c →
    ¬ Accepts (fun _ => zeroSignature) (fun _ => true) (RelayConfig.default true) zeroOnion s now c

lemma RefusedForever.not_canReport {s : Retry} (h : RefusedForever s) :
    ¬ CanReport (fun _ => zeroSignature) (fun _ => true) (RelayConfig.default true) zeroOnion s := by
  rintro ⟨now, hle, hall⟩
  have hsame : s.reporter.counter.Later s.reporter.counter := ⟨rfl, rfl, le_refl _, le_refl _, le_refl _⟩
  refine h now s.reporter.counter hle hsame (hall _ ⟨hsame, ?_⟩)
  have hpos : (0 : ℤ) ≤ (RelayConfig.default true).maxBytesPerSecond * (now - s.clock) :=
    mul_nonneg (Int.natCast_nonneg _) (by omega)
  simpa using hpos

/-- When the answer to the first report is lost, the next has its number until the entry is forgotten, and by then
its interval is too long.  And when an outage of 25 hours follows a report that was answered, the interval of the
next is too long from the start. -/
theorem reporter_refused_forever :
    (¬ ∀ tr s, Run (RetryStep (fun _ => zeroSignature) (fun _ => true) (RelayConfig.default true) zeroOnion)
      (.start sampleBootId 0 (by decide)) tr s →
        CanReport (fun _ => zeroSignature) (fun _ => true) (RelayConfig.default true) zeroOnion s) ∧
    (∃ tr s, Run (RetryStep (fun _ => zeroSignature) (fun _ => true) (RelayConfig.default true) zeroOnion)
      (.start sampleBootId 0 (by decide)) tr s ∧ s.clock = 3600000 ∧ RefusedForever s) ∧
    ∃ tr s, Run (RetryStep (fun _ => zeroSignature) (fun _ => true) (RelayConfig.default true) zeroOnion)
      (.start sampleBootId 0 (by decide)) tr s ∧ (∀ e ∈ tr, ∀ r b, e = .accepted r b → b = true) ∧
        RefusedForever s := by
  have hlost : ∃ tr s, Run (RetryStep (fun _ => zeroSignature) (fun _ => true) (RelayConfig.default true) zeroOnion)
      (.start sampleBootId 0 (by decide)) tr s ∧ s.clock = 3600000 ∧ RefusedForever s := by
    obtain ⟨tr, s, hrun, hclock, hcounter, hprevious, hentry, -⟩ := run_first false (fun _ _ => True)
      (fun _ _ _ => trivial) (fun _ => trivial) fun _ _ => trivial
    refine ⟨tr, s, hrun.forget, hclock, fun now c hle hlater => ?_⟩
    have hprevious : s.reporter.previous = none := hprevious
    have hstart : nextStart c.snapshot s.reporter.previous = some 0 := by
      rw [nextStart_later hlater, hprevious, hcounter]
      rfl
    by_cases hshort : now ≤ 86400000
    · refine not_accepts_of_known hstart hentry (by rw [hprevious]; decide) ?_
      show now - 129600000 ≤ 3600000
      omega
    · refine not_accepts_of_long hstart ?_
      show (86400000 : ℤ) < now - 0
      omega
  refine ⟨fun hall => ?_, hlost, ?_⟩
  · obtain ⟨tr, s, hrun, -, hrefused⟩ := hlost
    exact hrefused.not_canReport (hall tr s hrun)
  · obtain ⟨tr, s, hrun, hclock, hcounter, hprevious, -, hacked⟩ := run_first true (fun _ _ => True)
      (fun _ _ _ => trivial) (fun _ => trivial) fun _ _ => trivial
    have hrate : WithinRate (RelayConfig.default true) s.reporter.counter s.reporter.counter (93600000 - s.clock) := by
      refine ⟨⟨rfl, rfl, le_refl _, le_refl _, le_refl _⟩, ?_⟩
      rw [hclock]
      simp
    -- 25 hours after the report
    have hpass := hrun.forget.snoc (.pass 93600000 (by omega) hrate)
    refine ⟨_, _, hpass, ?_, fun now c hle hlater => ?_⟩
    · intro e he r b hacc
      rcases List.mem_append.mp he with he | he
      · exact hacked e he r b hacc
      · rw [List.mem_singleton.mp he] at hacc
        cases hacc
    · have hle : 93600000 ≤ now := hle
      have hstart : nextStart c.snapshot s.reporter.previous = some 3600000 := by
        rw [nextStart_later hlater, hprevious, hcounter]
        rfl
      refine not_accepts_of_long hstart ?_
      show (86400000 : ℤ) < now - 3600000
      omega

end ShadeTree.Bootnode.Relay
