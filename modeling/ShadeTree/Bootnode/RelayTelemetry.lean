import Mathlib.Algebra.BigOperators.Group.List.Basic
import Mathlib.Algebra.Order.BigOperators.Group.List
import Mathlib.Tactic.Linarith
import ShadeTree.Lib.Run
import ShadeTree.Lib.Table

/-!
# Relay telemetry (`makeRelayAggregator` in `lib/relay-telemetry.mjs`)

A gateway signs reports of two running byte counters, each over an interval of time.  The aggregator adds what
the counters grew by to the contributions of the onion, if the growth fits the length of the interval.  A report
waits for the answer whether its onion is announced, so any number of them are on their way at a time; an entry
whose interval ended too long ago is forgotten, and with it the contributions.
-/

namespace ShadeTree.Bootnode.Relay

open ShadeTree.Lib

def RELAY_REPORT_SCHEMA : String := "shade-tree-relay-report-v1"

def MAX_U64 : ℕ := 2 ^ 64 - 1

/-- The number that decimal digits write. -/
def decimal (digits : List Char) : ℕ := digits.foldl (fun n c => 10 * n + (c.toNat - '0'.toNat)) 0

/-- `u64(value)`. -/
def u64 (value : String) : Option ℕ :=
  let digits := value.toList
  if digits = ['0'] ∨ (digits.all Char.isDigit ∧ digits.head? ≠ some '0' ∧ 1 ≤ digits.length ∧ digits.length ≤ 20) then
    if decimal digits ≤ MAX_U64 then some (decimal digits) else none
  else none

/-- `/^[0-9a-f]{n}$/`. -/
def lowerHex (n : ℕ) (value : String) : Bool :=
  value.length == n && value.toList.all fun c => c.isDigit || ('a' ≤ c && c ≤ 'f')

/-- `/^[0-9a-f]{n}$/i`. -/
def anyHex (n : ℕ) (value : String) : Bool :=
  value.length == n && value.toList.all fun c => c.isDigit || ('a' ≤ c && c ≤ 'f') || ('A' ≤ c && c ≤ 'F')

/-- A report with the keys and the types of one; an interval is what `isoMillis` reads, `none` where it is `NaN`. -/
structure RelayReport where
  schema : String
  onion : String
  bootId : String
  sequence : ℤ
  intervalStart : Option ℤ
  intervalEnd : Option ℤ
  agentToDestinationBytes : String
  destinationToAgentBytes : String
  occurred : Bool
  reason : Option String
  signature : String
  deriving DecidableEq, Repr

/-- What `accept` reads of a report that `validRelayReport` passes. -/
structure ValidReport where
  onion : String
  bootId : String
  sequence : ℤ
  start : ℤ
  endAt : ℤ
  currentA : ℕ
  currentB : ℕ
  occurred : Bool
  start_lt : start < endAt
  deriving DecidableEq

/-- `validRelayReport(report)`; a report of other keys or types is `none`. -/
def validRelayReport (report : RelayReport) : Option ValidReport :=
  match report.intervalStart, report.intervalEnd, u64 report.agentToDestinationBytes,
      u64 report.destinationToAgentBytes with
  | some start, some endAt, some currentA, some currentB =>
    if h : start < endAt then
      if report.schema = RELAY_REPORT_SCHEMA ∧ lowerHex 32 report.bootId ∧
          1 ≤ report.sequence ∧ report.sequence ≤ 2 ^ 53 - 1 ∧
          report.reason = (if report.occurred then some "process-start" else none) ∧ anyHex 128 report.signature then
        some ⟨report.onion, report.bootId, report.sequence, start, endAt, currentA, currentB, report.occurred, h⟩
      else none
    else none
  | _, _, _, _ => none

inductive Reject where
  | badReport | badSignature | notAnnounced | futureInterval | staleInterval | intervalTooLong | sequenceReplay
  | intervalOverlap | missingReset | unexpectedReset | counterRollback | implausibleDelta
  deriving DecidableEq, Repr

def Reject.reason : Reject → String
  | .badReport => "bad-report"
  | .badSignature => "bad-signature"
  | .notAnnounced => "not-announced"
  | .futureInterval => "future-interval"
  | .staleInterval => "stale-interval"
  | .intervalTooLong => "interval-too-long"
  | .sequenceReplay => "sequence-replay"
  | .intervalOverlap => "interval-overlap"
  | .missingReset => "missing-reset"
  | .unexpectedReset => "unexpected-reset"
  | .counterRollback => "counter-rollback"
  | .implausibleDelta => "implausible-delta"

/-- The options, and whether there is a `statePath`.  Up to the bound on the interval its quotient by 1000 is
rounded up exactly. -/
structure RelayConfig where
  maxBytesPerSecond : ℕ
  maxIntervalMs : ℤ
  futureSkewMs : ℤ
  retentionMs : ℤ
  statePath : Bool
  maxIntervalMs_safe : maxIntervalMs ≤ 2 ^ 53 - 1

/-- The options left out. -/
def RelayConfig.default (statePath : Bool) : RelayConfig where
  maxBytesPerSecond := 2 * 1024 * 1024 * 1024
  maxIntervalMs := 24 * 60 * 60000
  futureSkewMs := 5 * 60000
  retentionMs := 36 * 60 * 60000
  statePath := statePath
  maxIntervalMs_safe := by norm_num

/-- An entry of `nodes`. -/
structure RelayNode where
  sequence : ℤ
  bootId : String
  endAt : ℤ
  agentToDestination : ℕ
  destinationToAgent : ℕ
  deriving DecidableEq, Repr

structure Contribution where
  onion : String
  start : ℤ
  endAt : ℤ
  agentToDestination : ℕ
  destinationToAgent : ℕ
  deriving DecidableEq, Repr

def Contribution.bytes (c : Contribution) : ℕ := c.agentToDestination + c.destinationToAgent

def Contribution.duration (c : Contribution) : ℤ := c.endAt - c.start

/-- `nodes` and `contributions`, the file, the calls of `accept` that wait with the clock they read; `reported`
are the contributions of all reports ever accepted. -/
structure Aggregator where
  nodes : Table String RelayNode
  contributions : List Contribution
  stored : Table String RelayNode
  waiting : List (ValidReport × ℤ)
  reported : List Contribution

def Aggregator.start : Aggregator := ⟨∅, [], ∅, [], []⟩

/-- `Math.ceil(d / 1000)`. -/
def ceilSeconds (d : ℤ) : ℤ := -(-d / 1000)

/-- The last check of `accept`. -/
def withinRate (C : RelayConfig) (r : ValidReport) (deltaA deltaB : ℕ) : Except Reject (ℕ × ℕ) :=
  let allowed := ceilSeconds (r.endAt - r.start) * C.maxBytesPerSecond
  if allowed < (deltaA : ℤ) + deltaB then .error .implausibleDelta else .ok (deltaA, deltaB)

/-- The checks of `accept` that look at the entry of the onion; the bytes that are new. -/
def deltas (C : RelayConfig) (r : ValidReport) : Option RelayNode → Except Reject (ℕ × ℕ)
  | none => if r.occurred = false then .error .missingReset else withinRate C r r.currentA r.currentB
  | some previous =>
    if r.sequence ≤ previous.sequence then .error .sequenceReplay
    else if r.start < previous.endAt then .error .intervalOverlap
    else if previous.bootId = r.bootId then
      if r.occurred then .error .unexpectedReset
      else if r.currentA < previous.agentToDestination ∨ r.currentB < previous.destinationToAgent then
        .error .counterRollback
      else withinRate C r (r.currentA - previous.agentToDestination) (r.currentB - previous.destinationToAgent)
    else if r.occurred = false then .error .missingReset
    else withinRate C r r.currentA r.currentB

/-- `accept` after the wait, with the clock it read before. -/
def judge (C : RelayConfig) (current : ℤ) (announced : Bool) (r : ValidReport) (previous : Option RelayNode) :
    Except Reject (ℕ × ℕ) :=
  if !announced then .error .notAnnounced
  else if current + C.futureSkewMs < r.endAt then .error .futureInterval
  else if r.endAt < current - C.retentionMs then .error .staleInterval
  else if C.maxIntervalMs < r.endAt - r.start then .error .intervalTooLong
  else deltas C r previous

namespace Aggregator

def checkpoint (C : RelayConfig) (s : Aggregator) : Aggregator :=
  if C.statePath then { s with stored := s.nodes } else s

def prune (C : RelayConfig) («at» : ℤ) (s : Aggregator) : Aggregator :=
  let oldest := «at» - C.retentionMs
  let contributions := s.contributions.filter fun entry => oldest ≤ entry.endAt
  let changed := s.nodes.entries.any fun entry => entry.2.endAt < oldest
  let nodes := s.nodes.keep fun _ entry => oldest ≤ entry.endAt
  let s := { s with nodes := nodes, contributions := contributions }
  if changed then s.checkpoint C else s

/-- The end of `accept`: the report counts. -/
def record (C : RelayConfig) (r : ValidReport) (deltaA deltaB : ℕ) (s : Aggregator) : Aggregator :=
  let entry : RelayNode := ⟨r.sequence, r.bootId, r.endAt, r.currentA, r.currentB⟩
  let contribution : Contribution := ⟨r.onion, r.start, r.endAt, deltaA, deltaB⟩
  checkpoint C
    { s with
      nodes := s.nodes.insert r.onion entry
      contributions := s.contributions ++ [contribution]
      reported := s.reported ++ [contribution] }

end Aggregator

/-! ### Runs -/

/-- What a call shows. -/
inductive RelayEvent where
  | refused (why : Reject)
  | received (r : ValidReport)
  | rejected (r : ValidReport) (why : Reject)
  | accepted (r : ValidReport) (deltaA deltaB : ℕ)
  | pruned (now : ℤ)
  | restarted

/-- The start of a call of `accept`, the end of one that waits, a `snapshot` (of which only `prune` matters
here), or a new process. -/
inductive RelayStep (verifyRelayReport : RelayReport → Bool) (C : RelayConfig) :
    Aggregator → RelayEvent → Aggregator → Prop where
  | malformed {s : Aggregator} (current : ℤ) : RelayStep verifyRelayReport C s (.refused .badReport) (s.prune C current)
  | invalid {s : Aggregator} {report : RelayReport} (current : ℤ) : validRelayReport report = none →
      RelayStep verifyRelayReport C s (.refused .badReport) (s.prune C current)
  | forged {s : Aggregator} {report : RelayReport} {r : ValidReport} (current : ℤ) :
      validRelayReport report = some r → verifyRelayReport report = false →
      RelayStep verifyRelayReport C s (.refused .badSignature) (s.prune C current)
  | receive {s : Aggregator} {report : RelayReport} {r : ValidReport} (current : ℤ) :
      validRelayReport report = some r → verifyRelayReport report = true →
      RelayStep verifyRelayReport C s (.received r)
        { s.prune C current with waiting := s.waiting ++ [(r, current)] }
  | reject {s : Aggregator} {i : ℕ} {r : ValidReport} {current : ℤ} {why : Reject} (announced : Bool) :
      s.waiting[i]? = some (r, current) → judge C current announced r (s.nodes.lookup r.onion) = .error why →
      RelayStep verifyRelayReport C s (.rejected r why) { s with waiting := s.waiting.eraseIdx i }
  | accept {s : Aggregator} {i : ℕ} {r : ValidReport} {current : ℤ} {deltaA deltaB : ℕ} (announced : Bool) :
      s.waiting[i]? = some (r, current) →
      judge C current announced r (s.nodes.lookup r.onion) = .ok (deltaA, deltaB) →
      RelayStep verifyRelayReport C s (.accepted r deltaA deltaB)
        { s.record C r deltaA deltaB with waiting := s.waiting.eraseIdx i }
  | prune {s : Aggregator} (now : ℤ) : RelayStep verifyRelayReport C s (.pruned now) (s.prune C now)
  | restart {s : Aggregator} : s.stored.size ≤ 100000 →
      RelayStep verifyRelayReport C s .restarted { s with nodes := s.stored, contributions := [], waiting := [] }

/-- The contribution of a step. -/
def RelayEvent.contribution : RelayEvent → Option Contribution
  | .accepted r deltaA deltaB => some ⟨r.onion, r.start, r.endAt, deltaA, deltaB⟩
  | _ => none

/-- The contributions of the reports of an onion that were accepted for intervals within a span. -/
def within (tr : List RelayEvent) (onion : String) (a b : ℤ) : List Contribution :=
  (tr.filterMap RelayEvent.contribution).filter fun c => c.onion = onion ∧ a ≤ c.start ∧ c.endAt ≤ b

/-- The bytes attributed to an onion over a span, and the time that its reports cover of it. -/
def bytesWithin (tr : List RelayEvent) (onion : String) (a b : ℤ) : ℕ :=
  ((within tr onion a b).map Contribution.bytes).sum

def durationWithin (tr : List RelayEvent) (onion : String) (a b : ℤ) : ℤ :=
  ((within tr onion a b).map Contribution.duration).sum

/-- The counters of a report are not ahead of the entry of its onion, or of zero after a reset, by more than the
rate times the interval. -/
def AtRate (C : RelayConfig) (r : ValidReport) : Option RelayNode → Prop
  | none => 1000 * ((r.currentA : ℤ) + r.currentB) ≤ C.maxBytesPerSecond * (r.endAt - r.start)
  | some previous =>
    if previous.bootId = r.bootId then
      1000 * ((r.currentA : ℤ) + r.currentB - (previous.agentToDestination + previous.destinationToAgent)) ≤
        C.maxBytesPerSecond * (r.endAt - r.start)
    else 1000 * ((r.currentA : ℤ) + r.currentB) ≤ C.maxBytesPerSecond * (r.endAt - r.start)

instance (C : RelayConfig) (r : ValidReport) : (previous : Option RelayNode) → Decidable (AtRate C r previous)
  | none => inferInstanceAs (Decidable (_ ≤ _))
  | some previous => by
    unfold AtRate
    infer_instance

/-- **The condition.** An accepted report keeps to the rate without any rounding, and a report of an onion that has
no entry begins after every interval reported for it before. -/
def Unrounded (C : RelayConfig) (s : Aggregator) : RelayEvent → Prop
  | .accepted r _ _ =>
    AtRate C r (s.nodes.lookup r.onion) ∧
      (s.nodes.lookup r.onion = none → ∀ c ∈ s.reported, c.onion = r.onion → c.endAt ≤ r.start)
  | _ => True

instance (C : RelayConfig) (s : Aggregator) : (e : RelayEvent) → Decidable (Unrounded C s e)
  | .accepted r _ _ =>
    inferInstanceAs (Decidable (AtRate C r _ ∧ (s.nodes.lookup r.onion = none → ∀ c ∈ s.reported, _ → _ ≤ _)))
  | .refused _ | .received _ | .rejected _ _ | .pruned _ | .restarted => inferInstanceAs (Decidable True)

/-! ### Spans -/

lemma le_ceilSeconds (d : ℤ) : d ≤ 1000 * ceilSeconds d := by
  unfold ceilSeconds
  omega

lemma ceilSeconds_mono {d d' : ℤ} (h : d ≤ d') : ceilSeconds d ≤ ceilSeconds d' := by
  unfold ceilSeconds
  omega

/-- Intervals one after another within a span last no longer than it. -/
lemma sum_duration_le {l : List Contribution} {a b : ℤ} (hab : a ≤ b)
    (hapart : l.Pairwise fun c c' => c.endAt ≤ c'.start) (hlt : ∀ c ∈ l, c.start < c.endAt)
    (hin : ∀ c ∈ l, a ≤ c.start ∧ c.endAt ≤ b) : (l.map Contribution.duration).sum ≤ b - a := by
  induction l generalizing a with
  | nil => simpa using hab
  | cons c l ih =>
    obtain ⟨hnext, hapart⟩ := List.pairwise_cons.mp hapart
    obtain ⟨hca, hcb⟩ := hin c List.mem_cons_self
    have hrest := ih hcb hapart (fun c' hc' => hlt c' (List.mem_cons_of_mem _ hc'))
      fun c' hc' => ⟨hnext c' hc', (hin c' (List.mem_cons_of_mem _ hc')).2⟩
    rw [List.map_cons, List.sum_cons, Contribution.duration]
    omega

/-- What keeps to a rate one by one keeps to it in total. -/
lemma sum_bytes_le {l : List Contribution} {rate : ℕ}
    (h : ∀ c ∈ l, 1000 * (c.bytes : ℤ) ≤ rate * c.duration) :
    1000 * ((l.map Contribution.bytes).sum : ℤ) ≤ rate * (l.map Contribution.duration).sum := by
  induction l with
  | nil => simp
  | cons c l ih =>
    have hc := h c List.mem_cons_self
    have hl := ih fun c' hc' => h c' (List.mem_cons_of_mem _ hc')
    simp only [List.map_cons, List.sum_cons, Nat.cast_add, mul_add]
    exact add_le_add hc hl

/-! ### What one report adds -/

section Accept

variable {C : RelayConfig} {r : ValidReport} {previous : Option RelayNode} {current : ℤ} {announced : Bool}
  {deltaA deltaB : ℕ}

lemma withinRate_ok {a b : ℕ} (h : withinRate C r a b = .ok (deltaA, deltaB)) :
    deltaA = a ∧ deltaB = b ∧ (a : ℤ) + b ≤ ceilSeconds (r.endAt - r.start) * C.maxBytesPerSecond := by
  simp only [withinRate] at h
  split at h
  · cases h
  · next hle =>
    cases h
    exact ⟨rfl, rfl, not_lt.mp hle⟩

lemma judge_ok (h : judge C current announced r previous = .ok (deltaA, deltaB)) :
    deltas C r previous = .ok (deltaA, deltaB) := by
  unfold judge at h
  split at h
  · cases h
  split at h
  · cases h
  split at h
  · cases h
  split at h
  · cases h
  · exact h

/-- An accepted report goes on from the entry of the same boot, or starts anew with a reset; in either case it
begins after the entry ends. -/
lemma deltas_ok (h : deltas C r previous = .ok (deltaA, deltaB)) :
    (∀ p, previous = some p → p.sequence < r.sequence ∧ p.endAt ≤ r.start) ∧
    (deltaA : ℤ) + deltaB ≤ ceilSeconds (r.endAt - r.start) * C.maxBytesPerSecond ∧
    ((∃ p, previous = some p ∧ p.bootId = r.bootId ∧ r.occurred = false ∧
        p.agentToDestination + deltaA = r.currentA ∧ p.destinationToAgent + deltaB = r.currentB) ∨
      ((∀ p, previous = some p → p.bootId ≠ r.bootId) ∧ r.occurred = true ∧
        deltaA = r.currentA ∧ deltaB = r.currentB)) := by
  cases previous with
  | none =>
    simp only [deltas] at h
    split at h
    · cases h
    next hreset =>
    obtain ⟨rfl, rfl, hrate⟩ := withinRate_ok h
    exact ⟨nofun, hrate, .inr ⟨nofun, by simpa using hreset, rfl, rfl⟩⟩
  | some p =>
    simp only [deltas] at h
    split at h
    · cases h
    next hsequence =>
    split at h
    · cases h
    next hafter =>
    have hpast : ∀ q, some p = some q → q.sequence < r.sequence ∧ q.endAt ≤ r.start := by
      rintro q ⟨⟩
      exact ⟨not_le.mp hsequence, not_lt.mp hafter⟩
    split at h
    · next hboot =>
      split at h
      · cases h
      next hreset =>
      split at h
      · cases h
      next hback =>
      obtain ⟨rfl, rfl, hrate⟩ := withinRate_ok h
      refine ⟨hpast, hrate, .inl ⟨p, rfl, hboot, by simpa using hreset, ?_, ?_⟩⟩ <;> omega
    · next hboot =>
      split at h
      · cases h
      next hreset =>
      obtain ⟨rfl, rfl, hrate⟩ := withinRate_ok h
      refine ⟨hpast, hrate, .inr ⟨?_, by simpa using hreset, rfl, rfl⟩⟩
      rintro q ⟨⟩
      exact hboot

/-- The new bytes of a report keep to the rate if its counters do. -/
lemma deltas_atRate (h : deltas C r previous = .ok (deltaA, deltaB)) (hrate : AtRate C r previous) :
    1000 * ((deltaA + deltaB : ℕ) : ℤ) ≤ C.maxBytesPerSecond * (r.endAt - r.start) := by
  obtain ⟨-, -, ⟨p, rfl, hboot, -, hA, hB⟩ | ⟨hother, -, rfl, rfl⟩⟩ := deltas_ok h
  · simp only [AtRate, hboot, if_true] at hrate
    rw [← hA, ← hB] at hrate
    push_cast at hrate ⊢
    linarith
  · cases previous with
    | none => exact_mod_cast hrate
    | some p =>
      simp only [AtRate, hother p rfl, if_false] at hrate
      exact_mod_cast hrate

end Accept

/-! ### What a run keeps -/

section Fields

variable {C : RelayConfig} {s : Aggregator}

@[simp] lemma Aggregator.nodes_checkpoint : (s.checkpoint C).nodes = s.nodes := by
  unfold checkpoint
  split <;> rfl

@[simp] lemma Aggregator.contributions_checkpoint : (s.checkpoint C).contributions = s.contributions := by
  unfold checkpoint
  split <;> rfl

@[simp] lemma Aggregator.waiting_checkpoint : (s.checkpoint C).waiting = s.waiting := by
  unfold checkpoint
  split <;> rfl

@[simp] lemma Aggregator.reported_checkpoint : (s.checkpoint C).reported = s.reported := by
  unfold checkpoint
  split <;> rfl

lemma Aggregator.nodes_prune (now : ℤ) :
    (s.prune C now).nodes = s.nodes.keep fun _ entry => now - C.retentionMs ≤ entry.endAt := by
  simp only [prune]
  split <;> simp

lemma Aggregator.contributions_prune (now : ℤ) :
    (s.prune C now).contributions = s.contributions.filter fun entry => now - C.retentionMs ≤ entry.endAt := by
  simp only [prune]
  split <;> simp

@[simp] lemma Aggregator.waiting_prune (now : ℤ) : (s.prune C now).waiting = s.waiting := by
  simp only [prune]
  split <;> simp

@[simp] lemma Aggregator.reported_prune (now : ℤ) : (s.prune C now).reported = s.reported := by
  simp only [prune]
  split <;> simp

lemma Aggregator.reported_record {r : ValidReport} {deltaA deltaB : ℕ} :
    (s.record C r deltaA deltaB).reported = s.reported ++ [⟨r.onion, r.start, r.endAt, deltaA, deltaB⟩] := by
  simp [record]

end Fields

/-- No entry of a table ends before a report of its onion. -/
def Covers (nodes : Table String RelayNode) (reported : List Contribution) : Prop :=
  ∀ onion n, nodes.lookup onion = some n → ∀ c ∈ reported, c.onion = onion → c.endAt ≤ n.endAt

structure Kept (C : RelayConfig) (s : Aggregator) : Prop where
  rate : ∀ c ∈ s.reported, 1000 * (c.bytes : ℤ) ≤ C.maxBytesPerSecond * c.duration
  lt : ∀ c ∈ s.reported, c.start < c.endAt
  apart : s.reported.Pairwise fun c c' => c.onion = c'.onion → c.endAt ≤ c'.start
  nodes : Covers s.nodes s.reported
  stored : Covers s.stored s.reported
  unstored : C.statePath = false → s.stored = ∅

section Kept

variable {C : RelayConfig} {s s' : Aggregator} {e : RelayEvent} {verify : RelayReport → Bool}
  {tr : List RelayEvent}

lemma Kept.start : Kept C .start where
  rate c h := by cases h
  lt c h := by cases h
  apart := List.Pairwise.nil
  nodes _ _ h := by simp [Aggregator.start] at h
  stored _ _ h := by simp [Aggregator.start] at h
  unstored _ := rfl

lemma Covers.empty {l : List Contribution} : Covers ∅ l := fun _ _ h => by simp at h

lemma Kept.checkpoint (h : Kept C s) : Kept C (s.checkpoint C) := by
  unfold Aggregator.checkpoint
  split
  · next hpath => exact ⟨h.rate, h.lt, h.apart, h.nodes, h.nodes, fun hno => by simp [hpath] at hno⟩
  · exact h

lemma Kept.prune (h : Kept C s) (now : ℤ) : Kept C (s.prune C now) := by
  have hnodes : Covers (s.nodes.keep fun _ entry => decide (now - C.retentionMs ≤ entry.endAt)) s.reported :=
    fun onion n hn => h.nodes onion n (Table.lookup_keep_eq_some.mp hn).1
  simp only [Aggregator.prune]
  split
  · exact Kept.checkpoint ⟨h.rate, h.lt, h.apart, hnodes, h.stored, h.unstored⟩
  · exact ⟨h.rate, h.lt, h.apart, hnodes, h.stored, h.unstored⟩

lemma Kept.record {r : ValidReport} {deltaA deltaB : ℕ} (h : Kept C s)
    (hd : deltas C r (s.nodes.lookup r.onion) = .ok (deltaA, deltaB))
    (hC : Unrounded C s (.accepted r deltaA deltaB)) : Kept C (s.record C r deltaA deltaB) := by
  have hbefore : ∀ c ∈ s.reported, c.onion = r.onion → c.endAt ≤ r.start := by
    intro c hc ho
    cases hp : s.nodes.lookup r.onion with
    | none => exact hC.2 hp c hc ho
    | some p =>
      rw [hp] at hd
      exact (h.nodes _ p hp c hc ho).trans ((deltas_ok hd).1 p rfl).2
  have hlt := r.start_lt
  have hnodes : Covers (s.nodes.insert r.onion ⟨r.sequence, r.bootId, r.endAt, r.currentA, r.currentB⟩)
      (s.reported ++ [⟨r.onion, r.start, r.endAt, deltaA, deltaB⟩]) := by
    intro onion n hn c hc ho
    rw [List.mem_append, List.mem_singleton] at hc
    by_cases honion : onion = r.onion
    · subst honion
      obtain rfl := Option.some.inj ((AList.lookup_insert _).symm.trans hn)
      rcases hc with hc | rfl
      · have := hbefore c hc ho
        show c.endAt ≤ r.endAt
        omega
      · exact le_refl _
    · rw [AList.lookup_insert_ne honion] at hn
      rcases hc with hc | rfl
      · exact h.nodes onion n hn c hc ho
      · exact absurd ho.symm honion
  have hall : ∀ {P : Contribution → Prop} (c₀ : Contribution), (∀ c ∈ s.reported, P c) → P c₀ →
      ∀ c ∈ s.reported ++ [c₀], P c := by
    intro P c₀ hold hnew c hc
    rcases List.mem_append.mp hc with hc | hc
    · exact hold c hc
    · obtain rfl := List.mem_singleton.mp hc
      exact hnew
  have hrate := hall ⟨r.onion, r.start, r.endAt, deltaA, deltaB⟩ h.rate (deltas_atRate hd hC.1)
  have hpos := hall ⟨r.onion, r.start, r.endAt, deltaA, deltaB⟩ h.lt hlt
  have hapart : List.Pairwise (fun c c' : Contribution => c.onion = c'.onion → c.endAt ≤ c'.start)
      (s.reported ++ [⟨r.onion, r.start, r.endAt, deltaA, deltaB⟩]) := by
    refine List.pairwise_append.mpr ⟨h.apart, List.pairwise_singleton _ _, ?_⟩
    rintro c hc c' hc' ho
    obtain rfl := List.mem_singleton.mp hc'
    exact hbefore c hc ho
  unfold Aggregator.record Aggregator.checkpoint
  split
  · next hpath => exact ⟨hrate, hpos, hapart, hnodes, hnodes, fun hno => by simp [hpath] at hno⟩
  · next hpath =>
    have hempty := h.unstored (by simpa using hpath)
    exact ⟨hrate, hpos, hapart, hnodes, by simpa only [hempty] using Covers.empty, h.unstored⟩

/-- A step keeps what is kept, under the condition. -/
lemma Kept.step (h : Kept C s) (hst : RelayStep verify C s e s') (hC : Unrounded C s e) : Kept C s' := by
  cases hst with
  | malformed current => exact h.prune current
  | invalid current _ => exact h.prune current
  | forged current _ _ => exact h.prune current
  | receive current _ _ =>
    have hp := h.prune current
    exact ⟨hp.rate, hp.lt, hp.apart, hp.nodes, hp.stored, hp.unstored⟩
  | reject _ _ _ => exact ⟨h.rate, h.lt, h.apart, h.nodes, h.stored, h.unstored⟩
  | accept _ _ hj =>
    have hr := h.record (judge_ok hj) hC
    exact ⟨hr.rate, hr.lt, hr.apart, hr.nodes, hr.stored, hr.unstored⟩
  | prune now => exact h.prune now
  | restart _ => exact ⟨h.rate, h.lt, h.apart, h.stored, h.stored, h.unstored⟩

/-- A step reports what its event says. -/
lemma RelayStep.reported (hst : RelayStep verify C s e s') :
    s'.reported = s.reported ++ e.contribution.toList := by
  cases hst with
  | accept _ _ _ => exact Aggregator.reported_record
  | _ => simp [RelayEvent.contribution]

lemma run_reported (h : Run (RelayStep verify C) .start tr s) :
    s.reported = tr.filterMap RelayEvent.contribution := by
  refine h.invariant (I := fun tr s => s.reported = tr.filterMap RelayEvent.contribution) rfl ?_
  intro tr t e u _ ih hst
  rw [hst.reported, ih, List.filterMap_append]
  cases he : e.contribution with
  | none => simp [he]
  | some c => simp [he]

lemma run_kept (h : Run (Restrict (RelayStep verify C) (Unrounded C)) .start tr s) : Kept C s :=
  h.invariant_state Kept.start fun _ _ _ hk hst => hk.step hst.2 hst.1

end Kept

/-- **Relay telemetry is bounded under the condition.** Whatever reports are accepted, in whatever order and
across restarts, those of one onion within a span cover no more time than the span, and the bytes attributed to
it are at most the rate times the time they cover, rounded up once. -/
theorem relay_bytes_bounded {verify : RelayReport → Bool} {C : RelayConfig} {tr : List RelayEvent}
    {s : Aggregator} (h : Run (Restrict (RelayStep verify C) (Unrounded C)) .start tr s) (onion : String)
    {a b : ℤ} (hab : a ≤ b) :
    (bytesWithin tr onion a b : ℤ) ≤ C.maxBytesPerSecond * ceilSeconds (durationWithin tr onion a b) ∧
      durationWithin tr onion a b ≤ b - a ∧
      (bytesWithin tr onion a b : ℤ) ≤ C.maxBytesPerSecond * ceilSeconds (b - a) := by
  have hk := run_kept h
  have hrep := run_reported h.forget
  have hmem : ∀ c ∈ within tr onion a b, c ∈ s.reported ∧ c.onion = onion ∧ a ≤ c.start ∧ c.endAt ≤ b := by
    intro c hc
    have hc := List.mem_filter.mp hc
    exact ⟨hrep ▸ hc.1, of_decide_eq_true hc.2⟩
  have hapart : (within tr onion a b).Pairwise fun c c' => c.endAt ≤ c'.start := by
    have hsub : (within tr onion a b).Sublist s.reported := hrep ▸ List.filter_sublist
    refine (hk.apart.sublist hsub).imp_of_mem fun hc hc' himp => ?_
    exact himp ((hmem _ hc).2.1.trans (hmem _ hc').2.1.symm)
  have hspan : durationWithin tr onion a b ≤ b - a :=
    sum_duration_le hab hapart (fun c hc => hk.lt c (hmem c hc).1) fun c hc => (hmem c hc).2.2
  have hbytes : 1000 * (bytesWithin tr onion a b : ℤ) ≤ C.maxBytesPerSecond * durationWithin tr onion a b :=
    sum_bytes_le fun c hc => hk.rate c (hmem c hc).1
  have hup := mul_le_mul_of_nonneg_left (le_ceilSeconds (durationWithin tr onion a b))
    (Nat.cast_nonneg C.maxBytesPerSecond : (0 : ℤ) ≤ _)
  have hmono := mul_le_mul_of_nonneg_left (ceilSeconds_mono hspan)
    (Nat.cast_nonneg C.maxBytesPerSecond : (0 : ℤ) ≤ _)
  have hone : (bytesWithin tr onion a b : ℤ) ≤ C.maxBytesPerSecond * ceilSeconds (durationWithin tr onion a b) := by
    rw [mul_left_comm] at hup
    linarith
  exact ⟨hone, hspan, hone.trans hmono⟩

/-! ### Reports one after the other -/

/-- The aggregator after a report that was received and accepted with no other waiting. -/
def Aggregator.accepted (C : RelayConfig) (current : ℤ) (r : ValidReport) (deltaA deltaB : ℕ) (s : Aggregator) :
    Aggregator :=
  { record C r deltaA deltaB { s.prune C current with waiting := [(r, current)] } with waiting := [] }

/-- The two steps of a report. -/
lemma run_accepted {C : RelayConfig} {verify : RelayReport → Bool} {cond : Aggregator → RelayEvent → Prop}
    {tr : List RelayEvent} {s : Aggregator} (h : Run (Restrict (RelayStep verify C) cond) .start tr s)
    (current : ℤ) (report : RelayReport) (r : ValidReport) (deltaA deltaB : ℕ) (hwait : s.waiting = [])
    (hvalid : validRelayReport report = some r) (hverify : verify report = true)
    (hjudge : judge C current true r ((s.prune C current).nodes.lookup r.onion) = .ok (deltaA, deltaB))
    (hc : cond s (.received r))
    (hc' : cond { s.prune C current with waiting := [(r, current)] } (.accepted r deltaA deltaB)) :
    Run (Restrict (RelayStep verify C) cond) .start (tr ++ [.received r] ++ [.accepted r deltaA deltaB])
      (s.accepted C current r deltaA deltaB) := by
  have hreceive := RelayStep.receive (s := s) (C := C) current hvalid hverify
  rw [hwait, List.nil_append] at hreceive
  exact (h.snoc ⟨hc, hreceive⟩).snoc ⟨hc', RelayStep.accept (i := 0) true rfl hjudge⟩

def zeroOnion : String := "aaaaaaaaaaaaaaaaaaaaaaaaaaaaaaaaaaaaaaaaaaaaaaaaaaam2dqd.onion"

/-- A report of a gateway that has not restarted since its first. -/
def sampleReport (sequence start endAt : ℤ) (bytes : String) (occurred : Bool) : RelayReport where
  schema := RELAY_REPORT_SCHEMA
  onion := zeroOnion
  bootId := "000102030405060708090a0b0c0d0e0f"
  sequence := sequence
  intervalStart := some start
  intervalEnd := some endAt
  agentToDestinationBytes := bytes
  destinationToAgentBytes := "0"
  occurred := occurred
  reason := if occurred then some "process-start" else none
  signature := String.ofList (List.replicate 128 '0')

def sampleValid (sequence start endAt : ℤ) (bytes : ℕ) (occurred : Bool) (h : start < endAt) : ValidReport :=
  ⟨zeroOnion, "000102030405060708090a0b0c0d0e0f", sequence, start, endAt, bytes, 0, occurred, h⟩

/-- Two reports over a second each, both at the rate. -/
theorem relay_bytes_bounded_twice : ∃ tr s,
    Run (Restrict (RelayStep (fun _ => true) (RelayConfig.default true)) (Unrounded (RelayConfig.default true)))
      .start tr s ∧
    bytesWithin tr zeroOnion 0 2000 = 4294967296 ∧ (bytesWithin tr zeroOnion 0 2000 : ℤ) ≤ 2147483648 * ceilSeconds 2000 := by
  have hone := run_accepted (C := RelayConfig.default true) (.nil : Run (Restrict (RelayStep (fun _ => true) _)
      (Unrounded (RelayConfig.default true))) .start [] .start) 1000 (sampleReport 1 0 1000 "2147483648" true)
    (sampleValid 1 0 1000 2147483648 true (by decide)) 2147483648 0 rfl (by decide +kernel) rfl (by decide +kernel)
    trivial (by decide)
  have htwo := run_accepted hone 2000 (sampleReport 2 1000 2000 "4294967296" false)
    (sampleValid 2 1000 2000 4294967296 false (by decide)) 2147483648 0 rfl (by decide +kernel) rfl (by decide +kernel)
    trivial (by decide)
  exact ⟨_, _, htwo, by decide, (relay_bytes_bounded htwo zeroOnion (by decide : (0 : ℤ) ≤ 2000)).2.2⟩

/-- The bound fails for two reports over a millisecond each with the bytes of a second, and when the entry of
the onion is forgotten between two reports these may be for one time. -/
theorem relay_bytes_inflated :
    (¬ ∀ tr s, Run (RelayStep (fun _ => true) (RelayConfig.default true)) .start tr s → ∀ onion (a b : ℤ), a ≤ b →
      (bytesWithin tr onion a b : ℤ) ≤ (RelayConfig.default true).maxBytesPerSecond * ceilSeconds (b - a)) ∧
    ¬ ∀ tr s, Run (RelayStep (fun _ => true) (RelayConfig.default true)) .start tr s → ∀ onion (a b : ℤ), a ≤ b →
      durationWithin tr onion a b ≤ b - a := by
  constructor
  · intro hall
    have hone := run_accepted (C := RelayConfig.default true) (.nil : Run (Restrict (RelayStep (fun _ => true) _)
        fun _ _ => True) .start [] .start) 1 (sampleReport 1 0 1 "2147483648" true)
      (sampleValid 1 0 1 2147483648 true (by decide)) 2147483648 0 rfl (by decide +kernel) rfl (by decide +kernel)
      trivial trivial
    have htwo := run_accepted hone 2 (sampleReport 2 1 2 "4294967296" false)
      (sampleValid 2 1 2 4294967296 false (by decide)) 2147483648 0 rfl (by decide +kernel) rfl (by decide +kernel)
      trivial trivial
    exact absurd (hall _ _ htwo.forget zeroOnion 0 2 (by decide)) (by decide)
  · intro hall
    have hone := run_accepted (C := RelayConfig.default true) (.nil : Run (Restrict (RelayStep (fun _ => true) _)
        fun _ _ => True) .start [] .start) 10000 (sampleReport 1 0 10000 "0" true)
      (sampleValid 1 0 10000 0 true (by decide)) 0 0 rfl (by decide +kernel) rfl (by decide +kernel) trivial trivial
    -- `retentionMs` and a millisecond after the first interval
    have htwo := run_accepted hone 129610001 (sampleReport 2 1 10001 "0" true)
      (sampleValid 2 1 10001 0 true (by decide)) 0 0 rfl (by decide +kernel) rfl (by decide +kernel) trivial trivial
    exact absurd (hall _ _ htwo.forget zeroOnion 0 10001 (by decide)) (by decide)

end ShadeTree.Bootnode.Relay
