import ShadeTree.Bootnode.RelayTelemetry
import ShadeTree.Lib.Decimal

/-!
# The reporter of relay telemetry (`buildRelayReport` in `lib/relay-telemetry.mjs`)

A gateway counts the bytes it relays and writes the counters to a file, under an id that is new with every start
of its process.  From the file and from what it remembers of the last report that was accepted, the heartbeat
builds the next report: in the same boot one that goes on where the last one ended, in a new boot a reset that
goes back to the start of the process.
-/

namespace ShadeTree.Bootnode.Relay

open ShadeTree.Lib

def RELAY_COUNTER_SCHEMA : String := "shade-tree-relay-counter-v1"

def RELAY_REPORT_STATE_SCHEMA : String := "shade-tree-relay-report-state-v1"

/-- What the gateway writes, with the keys and the types of it. -/
structure RelayCounterState where
  schema : String
  bootId : String
  startedAt : Option ℤ
  updatedAt : Option ℤ
  agentToDestinationBytes : String
  destinationToAgentBytes : String
  deriving DecidableEq, Repr

/-- `validRelayCounterState(value)`. -/
def validRelayCounterState (value : RelayCounterState) : Bool :=
  match value.startedAt, value.updatedAt with
  | some startedAt, some updatedAt =>
    value.schema == RELAY_COUNTER_SCHEMA && lowerHex 32 value.bootId && decide (startedAt ≤ updatedAt) &&
      (u64 value.agentToDestinationBytes).isSome && (u64 value.destinationToAgentBytes).isSome
  | _, _ => false

/-- What the heartbeat remembers of a report. -/
structure RelayReportState where
  schema : String
  sequence : ℤ
  bootId : String
  intervalEnd : Option ℤ
  agentToDestinationBytes : String
  destinationToAgentBytes : String
  deriving DecidableEq, Repr

/-- `validReportState(value)` for a value that is not `null`. -/
def validReportState (value : RelayReportState) : Bool :=
  value.schema == RELAY_REPORT_STATE_SCHEMA && decide (0 ≤ value.sequence) && decide (value.sequence ≤ 2 ^ 53 - 1) &&
    lowerHex 32 value.bootId && value.intervalEnd.isSome &&
    (u64 value.agentToDestinationBytes).isSome && (u64 value.destinationToAgentBytes).isSome

/-- `relayReportSigningPayload(report)`: everything but the signature. -/
def relayReportSigningPayload (report : RelayReport) : RelayReport := { report with signature := "" }

inductive BuildError where
  | counterRequired | priorState | time | emptyInterval | rollback | dateRange
  deriving DecidableEq, Repr

def BuildError.message : BuildError → String
  | .counterRequired => "valid relay counter state required"
  | .priorState => "invalid prior relay report state"
  | .time => "invalid relay report time"
  | .emptyInterval => "relay report interval is empty"
  | .rollback => "relay counter rollback"
  | .dateRange => "Invalid time value"

/-- The last millisecond of a `Date`. -/
def MAX_DATE : ℤ := 8640000000000000

/-- `previous?.bootId === counter.bootId`. -/
def sameBoot (counter : RelayCounterState) (previous : Option RelayReportState) : Bool :=
  previous.any fun p => p.bootId == counter.bootId

/-- Where the next report begins. -/
def nextStart (counter : RelayCounterState) : Option RelayReportState → Option ℤ
  | some p => if p.bootId = counter.bootId then p.intervalEnd else counter.startedAt
  | none => counter.startedAt

/-- A counter went back since the report of the same boot. -/
def rolledBack (counter : RelayCounterState) : Option RelayReportState → Bool
  | some p => p.bootId == counter.bootId &&
      (decide ((u64 counter.agentToDestinationBytes).getD 0 < (u64 p.agentToDestinationBytes).getD 0) ||
        decide ((u64 counter.destinationToAgentBytes).getD 0 < (u64 p.destinationToAgentBytes).getD 0))
  | none => false

/-- `(previous?.sequence || 0) + 1`. -/
def nextSequence (previous : Option RelayReportState) : ℤ := (previous.map RelayReportState.sequence).getD 0 + 1

/-- The report, unsigned. -/
def unsignedReport (counter : RelayCounterState) (previous : Option RelayReportState) (onion : String)
    (startMs endMs : ℤ) : RelayReport where
  schema := RELAY_REPORT_SCHEMA
  onion := onion
  bootId := counter.bootId
  sequence := nextSequence previous
  intervalStart := some startMs
  intervalEnd := some endMs
  agentToDestinationBytes := counter.agentToDestinationBytes
  destinationToAgentBytes := counter.destinationToAgentBytes
  occurred := !sameBoot counter previous
  reason := if sameBoot counter previous then none else some "process-start"
  signature := ""

/-- The report with its signature. -/
def signedReport (sign : RelayReport → String) (unsigned : RelayReport) : RelayReport :=
  { unsigned with signature := sign (relayReportSigningPayload unsigned) }

/-- `nextState`. -/
def stateOf (report : RelayReport) : RelayReportState where
  schema := RELAY_REPORT_STATE_SCHEMA
  sequence := report.sequence
  bootId := report.bootId
  intervalEnd := report.intervalEnd
  agentToDestinationBytes := report.agentToDestinationBytes
  destinationToAgentBytes := report.destinationToAgentBytes

/-- `buildRelayReport({counter, previous, onion, onionSeedHex, now})`; `now` is `none` where it is not finite, and
`sign` is `ed25519Sign` of the payload with the seed. -/
def buildRelayReport (sign : RelayReport → String) (counter : RelayCounterState) (previous : Option RelayReportState)
    (onion : String) (now : Option ℤ) : Except BuildError (RelayReport × RelayReportState) :=
  if !validRelayCounterState counter then .error .counterRequired
  else if previous.any fun p => !validReportState p then .error .priorState
  else match now with
  | none => .error .time
  | some endMs =>
    match nextStart counter previous with
    | none => .error .emptyInterval
    | some startMs =>
      if endMs ≤ startMs then .error .emptyInterval
      else if rolledBack counter previous then .error .rollback
      -- `toISOString` throws outside the range of dates
      else if MAX_DATE < endMs ∨ startMs < -MAX_DATE then .error .dateRange
      else
        let report := signedReport sign (unsignedReport counter previous onion startMs endMs)
        .ok (report, stateOf report)

section Build

variable {sign : RelayReport → String} {counter : RelayCounterState} {previous : Option RelayReportState}
  {onion : String} {now : Option ℤ} {report : RelayReport} {next : RelayReportState}

/-- What a report that was built says. -/
lemma buildRelayReport_ok (h : buildRelayReport sign counter previous onion now = .ok (report, next)) :
    ∃ startMs endMs, now = some endMs ∧ nextStart counter previous = some startMs ∧ startMs < endMs ∧
      report = signedReport sign (unsignedReport counter previous onion startMs endMs) ∧ next = stateOf report := by
  unfold buildRelayReport at h
  split at h
  · cases h
  split at h
  · cases h
  split at h
  · cases h
  next endMs =>
  split at h
  · cases h
  next startMs hstart =>
  split at h
  · cases h
  next hlt =>
  split at h
  · cases h
  split at h
  · cases h
  cases h
  exact ⟨startMs, endMs, rfl, hstart, not_le.mp hlt, rfl, rfl⟩

/-- A report is built when its interval is one and no counter went back. -/
lemma buildRelayReport_eq {startMs endMs : ℤ} (hcounter : validRelayCounterState counter = true)
    (hprevious : ∀ p, previous = some p → validReportState p = true) (hstart : nextStart counter previous = some startMs)
    (hlt : startMs < endMs) (hback : rolledBack counter previous = false) (hlow : -MAX_DATE ≤ startMs)
    (hhigh : endMs ≤ MAX_DATE) :
    buildRelayReport sign counter previous onion (some endMs) =
      .ok (signedReport sign (unsignedReport counter previous onion startMs endMs),
        stateOf (signedReport sign (unsignedReport counter previous onion startMs endMs))) := by
  have hprior : (previous.any fun p => !validReportState p) = false := by
    cases previous with
    | none => rfl
    | some p => simp [hprevious p rfl]
  have hrange : ¬ (MAX_DATE < endMs ∨ startMs < -MAX_DATE) := by omega
  simp only [buildRelayReport, hcounter, hprior, hstart, hback, hrange, not_le.mpr hlt, Bool.not_true,
    Bool.false_eq_true, if_false]

end Build

/-- What the checks of a report read. -/
lemma validRelayReport_some {report : RelayReport} {r : ValidReport} (h : validRelayReport report = some r) :
    r.onion = report.onion ∧ r.bootId = report.bootId ∧ r.sequence = report.sequence ∧
      report.intervalStart = some r.start ∧ report.intervalEnd = some r.endAt ∧
      u64 report.agentToDestinationBytes = some r.currentA ∧ u64 report.destinationToAgentBytes = some r.currentB ∧
      r.occurred = report.occurred := by
  unfold validRelayReport at h
  split at h
  · next startAt endAt a b hstart hend ha hb =>
    by_cases hlt : startAt < endAt
    · rw [dif_pos hlt] at h
      obtain ⟨-, h⟩ := Option.ite_none_right_eq_some.mp h
      obtain rfl := Option.some.inj h
      exact ⟨rfl, rfl, rfl, hstart, hend, ha, hb, rfl⟩
    · rw [dif_neg hlt] at h
      cases h
  · cases h

/-! ### The process of the gateway -/

/-- The counters as the gateway wrote them last. -/
structure RelayByteCounter where
  bootId : String
  startedAt : ℤ
  updatedAt : ℤ
  agentToDestination : ℕ
  destinationToAgent : ℕ
  bootId_hex : lowerHex 32 bootId = true
  started_le : startedAt ≤ updatedAt
  agent_le : agentToDestination ≤ MAX_U64
  destination_le : destinationToAgent ≤ MAX_U64

namespace RelayByteCounter

/-- `snapshot()`, as the file has it. -/
def snapshot (c : RelayByteCounter) : RelayCounterState where
  schema := RELAY_COUNTER_SCHEMA
  bootId := c.bootId
  startedAt := some c.startedAt
  updatedAt := some c.updatedAt
  agentToDestinationBytes := toString c.agentToDestination
  destinationToAgentBytes := toString c.destinationToAgent

/-- A new process, with nothing counted. -/
def boot (bootId : String) (now : ℤ) (h : lowerHex 32 bootId = true) : RelayByteCounter :=
  ⟨bootId, now, now, 0, 0, h, le_refl _, Nat.zero_le _, Nat.zero_le _⟩

/-- A later flush of the same process. -/
structure Later (c c' : RelayByteCounter) : Prop where
  bootId : c'.bootId = c.bootId
  startedAt : c'.startedAt = c.startedAt
  updatedAt : c.updatedAt ≤ c'.updatedAt
  agent : c.agentToDestination ≤ c'.agentToDestination
  destination : c.destinationToAgent ≤ c'.destinationToAgent

end RelayByteCounter

/-- The text of a counter is read back. -/
lemma u64_toString {n : ℕ} (hn : n ≤ MAX_U64) : u64 (toString n) = some n := by
  have htext : (toString n).toList = Decimal.digitsText n := by
    rw [Nat.toString_eq_repr, Nat.toList_repr, Decimal.digitsText]
  have hvalue : decimal (Decimal.digitsText n) = n := Nat.ofDigitChars_ten_toDigits
  have hform : Decimal.digitsText n = ['0'] ∨ ((Decimal.digitsText n).all Char.isDigit ∧
      (Decimal.digitsText n).head? ≠ some '0' ∧ 1 ≤ (Decimal.digitsText n).length ∧
        (Decimal.digitsText n).length ≤ 20) := by
    rcases Nat.eq_zero_or_pos n with rfl | hpos
    · exact .inl rfl
    · refine .inr ⟨List.all_eq_true.mpr fun c hc => Decimal.isDigit_of_mem hc, Decimal.digitsText_head hpos,
        Nat.length_toDigits_pos, (Nat.length_toDigits_le_iff (by decide) (by decide)).mpr ?_⟩
      exact lt_of_le_of_lt hn (by decide)
  unfold u64
  simp only [htext, hform, if_true, hvalue, hn]

lemma RelayByteCounter.validRelayCounterState_snapshot (c : RelayByteCounter) :
    validRelayCounterState c.snapshot = true := by
  simp only [validRelayCounterState, snapshot, c.bootId_hex, c.started_le, u64_toString c.agent_le,
    u64_toString c.destination_le]
  rfl

/-- A report of the counters as the Elder reads it. -/
lemma RelayByteCounter.validRelayReport_signed {sign : RelayReport → String} (hsign : ∀ report, anyHex 128 (sign report) = true)
    (c : RelayByteCounter) {previous : Option RelayReportState} (onion : String) {startMs endMs : ℤ}
    (hlt : startMs < endMs) (hpos : 1 ≤ nextSequence previous) (hsafe : nextSequence previous ≤ 2 ^ 53 - 1) :
    validRelayReport (signedReport sign (unsignedReport c.snapshot previous onion startMs endMs)) =
      some ⟨onion, c.bootId, nextSequence previous, startMs, endMs, c.agentToDestination, c.destinationToAgent,
        !sameBoot c.snapshot previous, hlt⟩ := by
  have hreason : (if sameBoot c.snapshot previous then none else some "process-start") =
      if !sameBoot c.snapshot previous then some "process-start" else none := by
    cases sameBoot c.snapshot previous <;> rfl
  have hA := u64_toString c.agent_le
  have hB := u64_toString c.destination_le
  simp only [validRelayReport, signedReport, unsignedReport, snapshot] at *
  simp only [hA, hB, hlt, hsign, c.bootId_hex]
  rw [dif_pos trivial, if_pos ⟨trivial, trivial, hpos, hsafe, hreason, trivial⟩]

/-! ### The process of the heartbeat -/

/-- The counters, the state that `writeRelayReportState` wrote, the start of every process so far, and every
report that was built. -/
structure Reporter where
  counter : RelayByteCounter
  previous : Option RelayReportState
  boots : Table String ℤ
  built : List (RelayReport × RelayReportState)

def Reporter.start (c : RelayByteCounter) : Reporter :=
  ⟨c, none, (∅ : Table String ℤ).insert c.bootId c.startedAt, []⟩

/-- A flush of the counters, a restart of the gateway under a new id, a report that is built at some time, or the
answer that a report was accepted: it may come late, or not at all. -/
inductive ReporterStep (sign : RelayReport → String) (onion : String) : Reporter → Reporter → Prop where
  | flush {r : Reporter} {c : RelayByteCounter} : r.counter.Later c →
      ReporterStep sign onion r { r with counter := c }
  | reboot {r : Reporter} {bootId : String} (now : ℤ) (h : lowerHex 32 bootId = true) : bootId ∉ r.boots →
      ReporterStep sign onion r { r with counter := .boot bootId now h, boots := r.boots.insert bootId now }
  | build {r : Reporter} (report : RelayReport) (next : RelayReportState) (now : ℤ) :
      buildRelayReport sign r.counter.snapshot r.previous onion (some now) = .ok (report, next) →
      ReporterStep sign onion r { r with built := r.built ++ [(report, next)] }
  | answered {r : Reporter} {report : RelayReport} {next : RelayReportState} : (report, next) ∈ r.built →
      ReporterStep sign onion r { r with previous := some next }

/-- A report is of a process that was started, for a time since its start; a reset is for all the time since. -/
def Grounded (boots : Table String ℤ) (report : RelayReport) : Prop :=
  ∃ startedAt startMs endMs, boots.lookup report.bootId = some startedAt ∧ report.intervalStart = some startMs ∧
    report.intervalEnd = some endMs ∧ startMs < endMs ∧ startedAt ≤ startMs ∧
    (report.occurred = true → startMs = startedAt)

/-- What an honest reporter keeps. -/
structure Honest (r : Reporter) : Prop where
  running : r.boots.lookup r.counter.bootId = some r.counter.startedAt
  built : ∀ x ∈ r.built, Grounded r.boots x.1 ∧ x.2 = stateOf x.1
  previous : ∀ p, r.previous = some p → ∃ report, (report, p) ∈ r.built

section Honest

variable {sign : RelayReport → String} {onion : String} {r r' : Reporter}

lemma Honest.start (c : RelayByteCounter) : Honest (.start c) where
  running := AList.lookup_insert _
  built _ h := by simp [Reporter.start] at h
  previous _ h := by simp [Reporter.start] at h

lemma lookup_insert_fresh {boots : Table String ℤ} {bootId id : String} {now startedAt : ℤ} (hfresh : bootId ∉ boots)
    (h : boots.lookup id = some startedAt) : (boots.insert bootId now).lookup id = some startedAt := by
  have hne : id ≠ bootId := by
    rintro rfl
    exact hfresh (Table.mem_of_lookup h)
  rw [AList.lookup_insert_ne hne, h]

lemma ReporterStep.boots (hst : ReporterStep sign onion r r') {id : String} {startedAt : ℤ}
    (h : r.boots.lookup id = some startedAt) : r'.boots.lookup id = some startedAt := by
  cases hst with
  | reboot now hhex hfresh => exact lookup_insert_fresh hfresh h
  | flush _ => exact h
  | build _ _ _ _ => exact h
  | answered _ => exact h

/-- A report that was built is grounded. -/
lemma Honest.grounded {now : Option ℤ} {report : RelayReport} {next : RelayReportState} (h : Honest r)
    (hbuild : buildRelayReport sign r.counter.snapshot r.previous onion now = .ok (report, next)) :
    Grounded r.boots report ∧ next = stateOf report := by
  obtain ⟨startMs, endMs, -, hstart, hlt, rfl, rfl⟩ := buildRelayReport_ok hbuild
  refine ⟨⟨r.counter.startedAt, startMs, endMs, h.running, rfl, rfl, hlt, ?_⟩, rfl⟩
  cases hp : r.previous with
  | none =>
    rw [hp] at hstart
    obtain rfl := Option.some.inj hstart
    exact ⟨le_refl _, fun _ => rfl⟩
  | some p =>
    rw [hp] at hstart
    simp only [nextStart] at hstart
    split at hstart
    · -- the report of the same boot that was accepted ends after it begins, and that is not before the start
      next hboot =>
      obtain ⟨last, hlast⟩ := h.previous p hp
      obtain ⟨⟨startedAt, s, e, hs, -, he, hse, hle, -⟩, hlast⟩ := h.built _ hlast
      obtain rfl : p = stateOf last := hlast
      obtain rfl : e = startMs := Option.some.inj (he.symm.trans hstart)
      have hrun := h.running
      rw [show r.counter.bootId = last.bootId from hboot.symm, hs] at hrun
      obtain rfl := Option.some.inj hrun
      refine ⟨by omega, fun hoccurred => ?_⟩
      simp [signedReport, unsignedReport, sameBoot, hboot] at hoccurred
    · obtain rfl := Option.some.inj hstart
      exact ⟨le_refl _, fun _ => rfl⟩

lemma Grounded.mono (hst : ReporterStep sign onion r r') {report : RelayReport} (h : Grounded r.boots report) :
    Grounded r'.boots report := by
  obtain ⟨startedAt, startMs, endMs, hs, hrest⟩ := h
  exact ⟨startedAt, startMs, endMs, hst.boots hs, hrest⟩

/-- A reporter stays honest. -/
lemma Honest.step (h : Honest r) (hst : ReporterStep sign onion r r') : Honest r' := by
  have hgrounded : ∀ x ∈ r.built, Grounded r'.boots x.1 ∧ x.2 = stateOf x.1 :=
    fun x hx => ⟨(h.built x hx).1.mono hst, (h.built x hx).2⟩
  cases hst with
  | flush hlater =>
    refine ⟨?_, hgrounded, h.previous⟩
    rw [hlater.bootId, hlater.startedAt]
    exact h.running
  | reboot now hhex hfresh => exact ⟨AList.lookup_insert _, hgrounded, h.previous⟩
  | build report next now hbuild =>
    refine ⟨h.running, ?_, ?_⟩
    · intro x hx
      rcases List.mem_append.mp hx with hx | hx
      · exact hgrounded x hx
      · obtain rfl := List.mem_singleton.mp hx
        exact h.grounded hbuild
    · intro p hp
      obtain ⟨report, hreport⟩ := h.previous p hp
      exact ⟨report, List.mem_append_left _ hreport⟩
  | @answered report next hbuilt =>
    refine ⟨h.running, hgrounded, ?_⟩
    intro p hp
    obtain rfl := Option.some.inj hp
    exact ⟨report, hbuilt⟩

end Honest

end ShadeTree.Bootnode.Relay
