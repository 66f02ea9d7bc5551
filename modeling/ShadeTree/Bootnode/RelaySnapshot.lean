import Mathlib
import ShadeTree.Bootnode.RelayConservation

/-!
# The signed aggregate (`snapshot`, `validRelayAggregate` and `verifyRelayAggregate` in `lib/relay-telemetry.mjs`)

The Elder signs what it publishes, and whoever reads it checks the form and the signature.  The options are numbers as
`Number` reads them from the environment, so they may be fractional, infinite or `NaN`; finite ones are rationals.  A
time is what `isoMillis` reads of its text, and a text is written of every time that a `Date` holds.
-/

namespace ShadeTree.Bootnode.RelaySnapshot

open ShadeTree.Lib
open Relay (RelayConfig Aggregator Contribution Suppression HOUR_MS MAX_U64 u64 anyHex eligible reporters)

/-! ### Numbers and times -/

inductive JsNumber where
  | fin (q : ℚ)
  | inf (neg : Bool)
  | nan
  deriving DecidableEq

namespace JsNumber

/-- `a < q`. -/
def lt : JsNumber → ℚ → Bool
  | .fin a, q => a < q
  | .inf neg, _ => neg
  | .nan, _ => false

/-- `q < a`. -/
def gt : JsNumber → ℚ → Bool
  | .fin a, q => q < a
  | .inf neg, _ => !neg
  | .nan, _ => false

/-- `a <= q`. -/
def le : JsNumber → ℚ → Bool
  | .fin a, q => a ≤ q
  | .inf neg, _ => neg
  | .nan, _ => false

/-- `a >= q`. -/
def ge : JsNumber → ℚ → Bool
  | .fin a, q => q ≤ a
  | .inf neg, _ => !neg
  | .nan, _ => false

end JsNumber

def QUARTER_MS : ℤ := 15 * 60000

/-- The greatest time of a `Date`. -/
def MAX_DATE : ℤ := 8640000000000000

/-- `new Date(ms).toISOString()`, or `none` when it throws. -/
def toISOString (ms : ℤ) : Option ℤ := if -MAX_DATE ≤ ms ∧ ms ≤ MAX_DATE then some ms else none

/-- `ms - delayHours * HOUR_MS`. -/
def delayed (ms : ℤ) : JsNumber → JsNumber
  | .fin d => .fin (ms - d * HOUR_MS)
  | .inf neg => .inf !neg
  | .nan => .nan

/-- `Math.floor(ms / HOUR_MS) * HOUR_MS`, where that is finite. -/
def floorHour : JsNumber → Option ℤ
  | .fin q => some (⌊q / HOUR_MS⌋ * HOUR_MS)
  | _ => none

/-! ### The aggregate -/

def RELAY_AGGREGATE_SCHEMA : String := "shade-tree-relay-aggregate-v1"

/-- The options of the publication that `makeRelayAggregator` takes. -/
structure SnapshotConfig where
  minimumCohort : JsNumber
  delayHours : JsNumber
  /-- `BigInt(bucketBytes)`, or `none` when that throws. -/
  bucketBytes : Option ℤ
  minimumCohort_ok : minimumCohort.lt Relay.RELAY_MINIMUM_COHORT = false
  delayHours_ok : delayHours.lt Relay.RELAY_DELAY_HOURS = false

/-- What `makeRelayAggregator` checks of its options. -/
def makeRelayAggregator (minimumCohort delayHours : JsNumber) (bucketBytes : Option ℤ) : Except String SnapshotConfig :=
  if hcohort : minimumCohort.lt Relay.RELAY_MINIMUM_COHORT then .error "relay minimum cohort cannot be below five"
  else if hdelay : delayHours.lt Relay.RELAY_DELAY_HOURS then
    .error "relay publication delay cannot be below six hours"
  else .ok ⟨minimumCohort, delayHours, bucketBytes, by simpa using hcohort, by simpa using hdelay⟩

/-- A window with the types of one; a key that is absent is `none`. -/
structure Window where
  status : String
  windowHours : ℤ
  windowStart : Option ℤ
  windowEnd : Option ℤ
  reportingNodes : ℤ
  roundedBytes : Option String
  suppressionReason : Option String

/-- `relayAggregateSigningPayload(aggregate)`. -/
structure Payload where
  schema : String
  generatedAt : Option ℤ
  definition : String
  unit : String
  delayHours : JsNumber
  minimumCohort : JsNumber
  method : String
  bucketBytes : String
  sixHour : Window
  twentyFourHour : Window
  signer : String

structure SignedAggregate where
  payload : Payload
  signature : String

/-! ### Who signs -/

/-- A pair of keys of `ed25519Sign` and `ed25519Verify`. -/
structure KeyPair (ed25519Verify : Payload → String → String → Bool) where
  pub : String
  ed25519Sign : Payload → String
  pub_hex : anyHex 64 pub = true
  signature_hex : ∀ payload, anyHex 128 (ed25519Sign payload) = true
  verified : ∀ payload, ed25519Verify payload (ed25519Sign payload) pub = true

/-! ### What is published -/

def Suppression.text : Suppression → String
  | .unavailable => "unavailable"
  | .minimumCohort => "minimum-cohort"

/-- `suppressionReason(reporters, total, minimumCohort)`. -/
def suppressionReason (reporters total : ℕ) (minimumCohort : JsNumber) : Option Suppression :=
  if reporters = 0 then some .unavailable
  else if minimumCohort.gt reporters then some .minimumCohort
  else if total = 0 then some .unavailable
  else none

/-- `roundedUp(value, bucket)`, or `none` when it divides by zero. -/
def roundedUp (value : ℕ) (bucket : ℤ) : Option ℤ :=
  if value = 0 then some 0 else if bucket = 0 then none else some ((value + bucket - 1).tdiv bucket * bucket)

/-- `aggregateWindow(windowEnd, hours)`, or `none` when it throws. -/
def aggregateWindow (P : SnapshotConfig) (bucket : ℤ) (contributions : List Contribution) (windowEnd hours : ℤ) :
    Option Window := do
  let windowStart := windowEnd - hours * HOUR_MS
  let counted := eligible contributions windowStart windowEnd
  let total := (counted.map Contribution.bytes).sum
  let start ← toISOString windowStart
  let endAt ← toISOString windowEnd
  match suppressionReason (reporters counted) total P.minimumCohort with
  | some reason => some ⟨"suppressed", hours, start, endAt, reporters counted, none, some (Suppression.text reason)⟩
  | none => (roundedUp total bucket).map fun rounded =>
    ⟨"available", hours, start, endAt, reporters counted, some (toString rounded), none⟩

variable {ed25519Verify : Payload → String → String → Bool}

/-- `snapshot()` after `prune`, or `none` when it throws. -/
def snapshotAggregate (P : SnapshotConfig) (signer : KeyPair ed25519Verify) (contributions : List Contribution)
    (current : ℤ) : Option SignedAggregate := do
  let generatedAt ← toISOString (current / QUARTER_MS * QUARTER_MS)
  let windowEnd ← floorHour (delayed current P.delayHours)
  let bucket ← P.bucketBytes
  let sixHour ← aggregateWindow P bucket contributions windowEnd 6
  let twentyFourHour ← aggregateWindow P bucket contributions windowEnd 24
  let payload : Payload := ⟨RELAY_AGGREGATE_SCHEMA, generatedAt, "payload-bytes-relayed", "bytes", P.delayHours,
    P.minimumCohort, "ceiling", toString bucket, sixHour, twentyFourHour, signer.pub⟩
  some ⟨payload, signer.ed25519Sign payload⟩

/-- `snapshot()` at some time: the state it leaves, and what it publishes unless it throws. -/
def snapshot (C : RelayConfig) (P : SnapshotConfig) (signer : KeyPair ed25519Verify) (current : ℤ) (s : Aggregator) :
    Aggregator × Option SignedAggregate :=
  (s.prune C current, snapshotAggregate P signer (s.prune C current).contributions current)

/-! ### What is accepted -/

/-- The keys of a window. -/
def exactWindowKeys (w : Window) : Bool :=
  if w.status = "available" then w.roundedBytes.isSome && w.suppressionReason.isNone
  else w.roundedBytes.isNone && w.suppressionReason.isSome

def validWindow (value : Payload) (generatedAt : ℤ) (w : Window) (hours : ℤ) : Bool :=
  match w.windowStart, w.windowEnd with
  | some start, some endAt =>
    exactWindowKeys w && w.windowHours == hours && endAt - start == hours * HOUR_MS &&
      (delayed generatedAt value.delayHours).ge endAt && 0 ≤ w.reportingNodes && w.reportingNodes ≤ 100000 &&
      if w.status = "available" then
        value.minimumCohort.le w.reportingNodes && (w.roundedBytes.bind u64).any fun rounded =>
          0 < rounded && (u64 value.bucketBytes).any fun bucket => rounded % bucket == 0
      else w.status == "suppressed" && (w.suppressionReason.any fun reason => reason ∈ ["minimum-cohort", "unavailable"]) &&
        w.roundedBytes.isNone
  | _, _ => false

def validRelayAggregate (value : SignedAggregate) : Bool :=
  match value.payload.generatedAt with
  | none => false
  | some generatedAt =>
    let p := value.payload
    p.schema == RELAY_AGGREGATE_SCHEMA && p.definition == "payload-bytes-relayed" && p.unit == "bytes" &&
      p.delayHours.ge Relay.RELAY_DELAY_HOURS && p.minimumCohort.ge Relay.RELAY_MINIMUM_COHORT && p.method == "ceiling" &&
      ((u64 p.bucketBytes).any fun bucket => 0 < bucket) && validWindow p generatedAt p.sixHour 6 &&
      validWindow p generatedAt p.twentyFourHour 24 && anyHex 64 p.signer && anyHex 128 value.signature

def verifyRelayAggregate (ed25519Verify : Payload → String → String → Bool) (aggregate : SignedAggregate)
    (pinnedSigner : String) : Bool :=
  validRelayAggregate aggregate && aggregate.payload.signer == pinnedSigner &&
    ed25519Verify aggregate.payload aggregate.signature aggregate.payload.signer

/-! ### When the two agree -/

/-- The last full hour that ended so many hours before the clock. -/
def lastHour (d : ℚ) (clock : ℤ) : ℤ := ⌊(clock - d * HOUR_MS) / HOUR_MS⌋ * HOUR_MS

/-- The contributions of a window are those of no more gateways than a reader believes, and when they are enough
gateways the bytes leave room for rounding up. -/
structure Fits (P : SnapshotConfig) (bucket : ℤ) (l : List Contribution) : Prop where
  reporters : reporters l ≤ 100000
  total : P.minimumCohort.le (Relay.reporters l) = true → ((l.map Contribution.bytes).sum : ℤ) ≤ MAX_U64 / bucket * bucket

/-- A finite delay `d` and a bucket for which what is published at the clock is accepted: the clock is no further past
its quarter of an hour than the delayed clock is past its hour, all dates can be written, and both windows fit. -/
structure PublishableAt (C : RelayConfig) (P : SnapshotConfig) (s : Aggregator) (clock : ℤ) (d : ℚ) (bucket : ℤ) :
    Prop where
  cohort : P.minimumCohort ≠ .nan
  bucket_pos : 1 ≤ bucket
  bucket_le : bucket ≤ MAX_U64
  aligned : ((clock % QUARTER_MS : ℤ) : ℚ) ≤ HOUR_MS * Int.fract ((clock - d * HOUR_MS) / HOUR_MS)
  last : clock < MAX_DATE + QUARTER_MS
  first : -(MAX_DATE : ℚ) + 24 * HOUR_MS ≤ clock - d * HOUR_MS
  fits : ∀ hours ∈ Relay.RELAY_WINDOWS, Fits P bucket
    (eligible (s.prune C clock).contributions (lastHour d clock - hours * HOUR_MS) (lastHour d clock))

def Publishable (C : RelayConfig) (P : SnapshotConfig) (s : Aggregator) (clock : ℤ) : Prop :=
  ∃ d bucket, P.delayHours = .fin d ∧ P.bucketBytes = some bucket ∧ PublishableAt C P s clock d bucket

/-! ### Numbers -/

lemma toISOString_eq_some {ms t : ℤ} : toISOString ms = some t ↔ (-MAX_DATE ≤ ms ∧ ms ≤ MAX_DATE) ∧ t = ms := by
  unfold toISOString
  rw [Option.ite_none_right_eq_some, Option.some.injEq, eq_comm (a := ms)]

/-- What `u64` reads is the number that the digits write. -/
lemma u64_eq_some {value : String} {n : ℕ} (h : u64 value = some n) :
    (∀ c ∈ value.toList, c.isDigit = true) ∧ n = Relay.decimal value.toList ∧ n ≤ MAX_U64 := by
  unfold u64 at h
  dsimp only at h
  split at h
  swap
  · cases h
  next hform =>
  obtain ⟨hle, hn⟩ := Option.ite_none_right_eq_some.mp h
  obtain rfl := Option.some.inj hn
  refine ⟨?_, rfl, hle⟩
  rcases hform with hzero | ⟨hdigits, -⟩
  · intro c hc
    rw [hzero, List.mem_singleton] at hc
    subst hc
    rfl
  · exact List.all_eq_true.mp hdigits

/-- The texts of integers that `u64` reads. -/
lemma u64_toString_int {b : ℤ} {n : ℕ} : u64 (toString b) = some n ↔ b = n ∧ n ≤ MAX_U64 := by
  cases b with
  | ofNat m =>
    have htext : (toString m).toList = Decimal.digitsText m := by
      rw [Nat.toString_eq_repr, Nat.toList_repr, Decimal.digitsText]
    have hvalue : Relay.decimal (toString m).toList = m := htext ▸ Nat.ofDigitChars_ten_toDigits
    constructor
    · intro h
      obtain ⟨-, hn, hle⟩ := u64_eq_some (show u64 (toString m) = some n from h)
      rw [hvalue] at hn
      exact ⟨by rw [hn]; rfl, hle⟩
    · rintro ⟨hm, hle⟩
      obtain rfl := Int.ofNat.inj hm
      exact Relay.u64_toString hle
  | negSucc m =>
    refine iff_of_false (fun h => ?_) (fun h => by have hneg := h.1; omega)
    obtain ⟨hdigits, -⟩ := u64_eq_some h
    have htext : toString (Int.negSucc m) = "-" ++ Nat.repr (m + 1) := rfl
    have hminus : '-' ∈ (toString (Int.negSucc m)).toList := by
      rw [htext, String.toList_append]
      exact List.mem_append_left _ (by decide)
    exact absurd (hdigits _ hminus) (by decide)

/-- Rounding up stays below a bound exactly when the value is below the last multiple under the bound. -/
lemma roundedUp_le {value : ℕ} {bucket : ℤ} (hvalue : value ≠ 0) (hbucket : 1 ≤ bucket) :
    ∃ rounded : ℕ, roundedUp value bucket = some (rounded : ℤ) ∧ 0 < rounded ∧ (rounded : ℤ) % bucket = 0 ∧
      (rounded ≤ MAX_U64 ↔ (value : ℤ) ≤ MAX_U64 / bucket * bucket) := by
  obtain ⟨b, rfl⟩ := Int.eq_ofNat_of_zero_le (zero_le_one.trans hbucket)
  have hb : 0 < b := by omega
  have hnum : (value : ℤ) + b - 1 = ((value + b - 1 : ℕ) : ℤ) := by omega
  refine ⟨(value + b - 1) / b * b, ?_, ?_, ?_, ?_⟩
  · unfold roundedUp
    rw [if_neg hvalue, if_neg (by omega), hnum, ← Int.ofNat_tdiv, ← Nat.cast_mul]
  · exact Nat.mul_pos (Nat.div_pos (by omega) hb) hb
  · rw [Nat.cast_mul, Int.mul_emod_left]
  · have hcast : (value : ℤ) ≤ MAX_U64 / (b : ℤ) * b ↔ value ≤ MAX_U64 / b * b := by exact_mod_cast Iff.rfl
    rw [hcast]
    have hceil : (value + b - 1) / b ≤ MAX_U64 / b ↔ value ≤ MAX_U64 / b * b := by
      rw [Nat.div_le_iff_le_mul_add_pred hb, mul_comm b]
      omega
    rw [← hceil, ← Nat.le_div_iff_mul_le hb]

/-- The last full hour is in time exactly when the clock is no further past its quarter of an hour than the delayed
clock is past its hour. -/
lemma lastHour_le {d : ℚ} {clock : ℤ} :
    (delayed (clock / QUARTER_MS * QUARTER_MS) (.fin d)).ge (lastHour d clock) = true ↔
      ((clock % QUARTER_MS : ℤ) : ℚ) ≤ HOUR_MS * Int.fract ((clock - d * HOUR_MS) / HOUR_MS) := by
  have hquarter : ((clock / QUARTER_MS * QUARTER_MS : ℤ) : ℚ) = clock - (clock % QUARTER_MS : ℤ) := by
    have h := Int.emod_add_mul_ediv clock QUARTER_MS
    rw [← Int.cast_sub, Int.cast_inj]
    linarith
  have hhour : ((lastHour d clock : ℤ) : ℚ) =
      clock - d * HOUR_MS - HOUR_MS * Int.fract ((clock - d * HOUR_MS) / HOUR_MS) := by
    have hne : (HOUR_MS : ℚ) ≠ 0 := by decide
    unfold lastHour Int.fract
    rw [Int.cast_mul]
    field_simp
    ring
  unfold delayed JsNumber.ge
  rw [decide_eq_true_eq, hhour, hquarter]
  constructor <;> intro h <;> linarith

/-! ### Windows -/

section Windows

variable {P : SnapshotConfig} {bucket windowEnd hours : ℤ}

/-- Enough reporters for a cohort are at least five. -/
lemma reporters_pos {n : ℕ} (hcohort : P.minimumCohort.ge Relay.RELAY_MINIMUM_COHORT = true)
    (h : P.minimumCohort.le n = true) : n ≠ 0 ∧ P.minimumCohort.gt n = false := by
  cases hnum : P.minimumCohort with
  | fin a =>
    simp only [hnum, JsNumber.ge, JsNumber.le, JsNumber.gt, decide_eq_true_eq, decide_eq_false_iff_not] at hcohort h ⊢
    refine ⟨?_, not_lt.mpr h⟩
    rintro rfl
    have hfive : ((Relay.RELAY_MINIMUM_COHORT : ℕ) : ℚ) = 5 := rfl
    rw [hfive] at hcohort
    norm_num at h
    linarith
  | inf neg =>
    cases neg with
    | true => simp [hnum, JsNumber.ge] at hcohort
    | false => simp [hnum, JsNumber.le] at h
  | nan => simp [hnum, JsNumber.ge] at hcohort

lemma le_of_gt_eq_false {n : ℕ} (hcohort : P.minimumCohort.ge Relay.RELAY_MINIMUM_COHORT = true)
    (h : P.minimumCohort.gt n = false) : P.minimumCohort.le n = true := by
  cases hnum : P.minimumCohort with
  | fin a =>
    simp only [hnum, JsNumber.gt, decide_eq_false_iff_not, not_lt] at h
    simpa [JsNumber.le] using h
  | inf neg =>
    cases neg with
    | true => rfl
    | false => simp [hnum, JsNumber.gt] at h
  | nan => simp [hnum, JsNumber.ge] at hcohort

/-- A window whose ends can be written is published, and read as valid exactly when it ended in time and fits. -/
lemma aggregateWindow_valid (contributions : List Contribution)
    (hcohort : P.minimumCohort.ge Relay.RELAY_MINIMUM_COHORT = true) (hbucket : 1 ≤ bucket)
    (hbucketLe : bucket ≤ MAX_U64) (hstart : toISOString (windowEnd - hours * HOUR_MS) = some (windowEnd - hours * HOUR_MS))
    (hend : toISOString windowEnd = some windowEnd) :
    ∃ w, aggregateWindow P bucket contributions windowEnd hours = some w ∧
      ∀ (value : Payload) generatedAt, value.minimumCohort = P.minimumCohort → value.bucketBytes = toString bucket →
        (validWindow value generatedAt w hours = true ↔ (delayed generatedAt value.delayHours).ge windowEnd = true ∧
          Fits P bucket (eligible contributions (windowEnd - hours * HOUR_MS) windowEnd)) := by
  set counted := eligible contributions (windowEnd - hours * HOUR_MS) windowEnd with hcounted
  obtain ⟨b, rfl⟩ := Int.eq_ofNat_of_zero_le (zero_le_one.trans hbucket)
  unfold aggregateWindow
  simp only [← hcounted, hstart, hend, Option.bind_eq_bind, Option.bind_some]
  cases hreason : suppressionReason (reporters counted) (counted.map Contribution.bytes).sum P.minimumCohort with
  | some reason =>
    refine ⟨_, rfl, fun value generatedAt hvalue _ => ?_⟩
    -- a suppressed window has no bytes to round, or too few gateways
    have htotal : P.minimumCohort.le (reporters counted) = true → (counted.map Contribution.bytes).sum = 0 := by
      intro hle
      obtain ⟨hpos, hgt⟩ := reporters_pos hcohort hle
      unfold suppressionReason at hreason
      rw [if_neg hpos, hgt] at hreason
      by_contra hne
      simp [hne] at hreason
    have hknown : Suppression.text reason = "minimum-cohort" ∨ Suppression.text reason = "unavailable" := by
      cases reason with
      | unavailable => exact .inr rfl
      | minimumCohort => exact .inl rfl
    have hvalid : validWindow value generatedAt ⟨"suppressed", hours, some (windowEnd - hours * HOUR_MS), some windowEnd,
        reporters counted, none, some (Suppression.text reason)⟩ hours = true ↔
        (delayed generatedAt value.delayHours).ge windowEnd = true ∧ (reporters counted : ℤ) ≤ 100000 := by
      unfold validWindow exactWindowKeys
      simp [hknown]
    rw [hvalid]
    refine and_congr_right fun _ => ⟨fun hle => ⟨by omega, fun hle' => ?_⟩, fun hfits => by exact_mod_cast hfits.reporters⟩
    rw [htotal hle']
    exact Int.mul_nonneg (Int.ediv_nonneg (by omega) (by omega)) (by omega)
  | none =>
    have hgt : P.minimumCohort.gt (reporters counted) = false := by
      by_contra hgt
      unfold suppressionReason at hreason
      split_ifs at hreason
      simp_all
    have hpos : (counted.map Contribution.bytes).sum ≠ 0 := by
      intro hzero
      unfold suppressionReason at hreason
      rw [hgt, if_pos hzero] at hreason
      split_ifs at hreason
    obtain ⟨rounded, hrounded, hroundedPos, hmod, hle⟩ := roundedUp_le hpos hbucket
    have hmin := le_of_gt_eq_false hcohort hgt
    refine ⟨_, by rw [hrounded]; rfl, fun value generatedAt hvalue hbytes => ?_⟩
    have hb : u64 value.bucketBytes = some b := by
      rw [hbytes]
      exact u64_toString_int.mpr ⟨rfl, by exact_mod_cast hbucketLe⟩
    have hmod' : rounded % b = 0 := by exact_mod_cast hmod
    have hvalid : validWindow value generatedAt ⟨"available", hours, some (windowEnd - hours * HOUR_MS), some windowEnd,
        reporters counted, some (toString (rounded : ℤ)), none⟩ hours = true ↔
        (delayed generatedAt value.delayHours).ge windowEnd = true ∧ (reporters counted : ℤ) ≤ 100000 ∧
          rounded ≤ MAX_U64 := by
      have hread : (u64 (toString (rounded : ℤ))).any (fun n => decide (0 < n) && n % b == 0) = true ↔
          rounded ≤ MAX_U64 := by
        rw [Option.any_eq_true]
        constructor
        · rintro ⟨n, hn, -⟩
          obtain ⟨heq, hn⟩ := u64_toString_int.mp hn
          rwa [Int.ofNat.inj heq]
        · intro hle
          exact ⟨rounded, u64_toString_int.mpr ⟨rfl, hle⟩, by simp [hroundedPos, hmod']⟩
      unfold validWindow exactWindowKeys
      simp only [hvalue, hb, Option.any_some, Option.bind_some]
      rw [← hread]
      simp [hmin, and_assoc]
    rw [hvalid, hle]
    refine and_congr_right fun _ => ⟨fun h => ⟨by omega, fun _ => h.2⟩, fun hfits => ⟨?_, hfits.total hmin⟩⟩
    exact_mod_cast hfits.reporters

end Windows

/-! ### Dates -/

lemma lastHour_floor {d : ℚ} {clock : ℤ} : (lastHour d clock : ℚ) ≤ clock - d * HOUR_MS := by
  have hpos : (0 : ℚ) < HOUR_MS := by decide
  unfold lastHour
  rw [Int.cast_mul, ← le_div_iff₀ hpos]
  exact Int.floor_le _

/-- The times of an aggregate can be written exactly when the clock is before the end of all dates and the longer
window begins after their beginning. -/
lemma dates_iff {d : ℚ} {clock : ℤ} (hd : 6 ≤ d) :
    ((-MAX_DATE ≤ clock / QUARTER_MS * QUARTER_MS ∧ clock / QUARTER_MS * QUARTER_MS ≤ MAX_DATE) ∧
      -MAX_DATE ≤ lastHour d clock - 24 * HOUR_MS ∧ lastHour d clock ≤ MAX_DATE) ↔
      clock < MAX_DATE + QUARTER_MS ∧ -(MAX_DATE : ℚ) + 24 * HOUR_MS ≤ clock - d * HOUR_MS := by
  have hfirst : -MAX_DATE ≤ lastHour d clock - 24 * HOUR_MS ↔
      -(MAX_DATE : ℚ) + 24 * HOUR_MS ≤ clock - d * HOUR_MS := by
    have hpos : (0 : ℚ) < HOUR_MS := by decide
    have hmultiple : -MAX_DATE + 24 * HOUR_MS = (-2400000000 + 24) * HOUR_MS := by decide
    have hpos' : (0 : ℤ) < HOUR_MS := by decide
    have hcast : -(MAX_DATE : ℚ) + 24 * HOUR_MS = ((-2400000000 + 24 : ℤ) : ℚ) * HOUR_MS := by
      rw [← Int.cast_mul, ← hmultiple]
      push_cast
      rfl
    rw [le_sub_iff_add_le, hmultiple, lastHour, mul_le_mul_iff_of_pos_right hpos', Int.le_floor, hcast,
      le_div_iff₀ hpos]
  have hlater : (clock : ℚ) - d * HOUR_MS ≤ clock - 6 * HOUR_MS := by
    have hpos : (0 : ℚ) ≤ HOUR_MS := by decide
    have := mul_le_mul_of_nonneg_right hd hpos
    linarith
  have hend : lastHour d clock ≤ clock - 6 * HOUR_MS := by
    have h := (@lastHour_floor d clock).trans hlater
    exact_mod_cast h
  rw [hfirst]
  unfold MAX_DATE QUARTER_MS HOUR_MS at *
  constructor
  · rintro ⟨⟨-, hlast⟩, hwritten, -⟩
    exact ⟨by omega, hwritten⟩
  · rintro ⟨hlast, hwritten⟩
    have hbegin := hfirst.mpr hwritten
    exact ⟨⟨by omega, by omega⟩, hwritten, by omega⟩

/-! ### The snapshot -/

section Snapshot

variable {ed25519Verify : Payload → String → String → Bool} {C : RelayConfig} {P : SnapshotConfig}
  {signer : KeyPair ed25519Verify} {s : Aggregator} {clock : ℤ}

lemma delayHours_fin_ge {d : ℚ} (h : P.delayHours = .fin d) : 6 ≤ d := by
  have hok := P.delayHours_ok
  rw [h] at hok
  simpa [JsNumber.lt, Relay.RELAY_DELAY_HOURS] using hok

/-- What is read of an aggregate that was signed with its own key. -/
lemma verifyRelayAggregate_snapshot {payload : Payload} {generatedAt : ℤ} {d : ℚ} {bucket : ℤ}
    (hgenerated : payload.generatedAt = some generatedAt) (hschema : payload.schema = RELAY_AGGREGATE_SCHEMA)
    (hdefinition : payload.definition = "payload-bytes-relayed") (hunit : payload.unit = "bytes")
    (hmethod : payload.method = "ceiling") (hdelay : payload.delayHours = .fin d) (hd : 6 ≤ d)
    (hbucket : payload.bucketBytes = toString bucket) (hsigner : payload.signer = signer.pub) :
    verifyRelayAggregate ed25519Verify ⟨payload, signer.ed25519Sign payload⟩ signer.pub = true ↔
      payload.minimumCohort.ge Relay.RELAY_MINIMUM_COHORT = true ∧ (1 ≤ bucket ∧ bucket ≤ MAX_U64) ∧
        validWindow payload generatedAt payload.sixHour 6 = true ∧
          validWindow payload generatedAt payload.twentyFourHour 24 = true := by
  have hread : (u64 (toString bucket)).any (fun b => decide (0 < b)) = true ↔ 1 ≤ bucket ∧ bucket ≤ MAX_U64 := by
    rw [Option.any_eq_true]
    constructor
    · rintro ⟨n, hn, hpos⟩
      obtain ⟨rfl, hle⟩ := u64_toString_int.mp hn
      have hpos := of_decide_eq_true hpos
      exact ⟨by omega, by exact_mod_cast hle⟩
    · rintro ⟨hpos, hle⟩
      obtain ⟨n, rfl⟩ := Int.eq_ofNat_of_zero_le (zero_le_one.trans hpos)
      exact ⟨n, u64_toString_int.mpr ⟨rfl, by exact_mod_cast hle⟩, decide_eq_true (by omega)⟩
  have hdelayed : payload.delayHours.ge Relay.RELAY_DELAY_HOURS = true := by
    rw [hdelay]
    exact decide_eq_true (by exact_mod_cast hd)
  unfold verifyRelayAggregate validRelayAggregate
  simp only [hgenerated, hschema, hdefinition, hunit, hmethod, hsigner, hdelayed, signer.pub_hex, signer.verified,
    signer.signature_hex, beq_self_eq_true, Bool.true_and, Bool.and_true, Bool.and_eq_true, hbucket, hread]
  tauto

/-- A window is published only with times that can be written. -/
lemma aggregateWindow_dates {bucket windowEnd hours : ℤ} {contributions : List Contribution} {w : Window}
    (h : aggregateWindow P bucket contributions windowEnd hours = some w) :
    toISOString (windowEnd - hours * HOUR_MS) = some (windowEnd - hours * HOUR_MS) ∧
      toISOString windowEnd = some windowEnd := by
  obtain ⟨start, hstart, h⟩ := Option.bind_eq_some_iff.mp h
  obtain ⟨endAt, hend, -⟩ := Option.bind_eq_some_iff.mp h
  obtain ⟨-, rfl⟩ := toISOString_eq_some.mp hstart
  obtain ⟨-, rfl⟩ := toISOString_eq_some.mp hend
  exact ⟨hstart, hend⟩

lemma cohort_ge_iff : P.minimumCohort.ge Relay.RELAY_MINIMUM_COHORT = true ↔ P.minimumCohort ≠ .nan := by
  have hok := P.minimumCohort_ok
  cases hnum : P.minimumCohort with
  | fin a =>
    rw [hnum] at hok
    simpa [JsNumber.ge, JsNumber.lt] using hok
  | inf neg =>
    rw [hnum] at hok
    simpa [JsNumber.ge, JsNumber.lt] using hok
  | nan => simp [JsNumber.ge]

/-- What is signed at the clock. -/
def publishedPayload (P : SnapshotConfig) (signer : KeyPair ed25519Verify) (clock bucket : ℤ)
    (sixHour twentyFourHour : Window) : Payload :=
  ⟨RELAY_AGGREGATE_SCHEMA, some (clock / QUARTER_MS * QUARTER_MS), "payload-bytes-relayed", "bytes", P.delayHours,
    P.minimumCohort, "ceiling", toString bucket, sixHour, twentyFourHour, signer.pub⟩

lemma snapshotAggregate_eq_some {contributions : List Contribution} {aggregate : SignedAggregate} :
    snapshotAggregate P signer contributions clock = some aggregate ↔
      ∃ d bucket six twentyFour, P.delayHours = .fin d ∧ P.bucketBytes = some bucket ∧
        (-MAX_DATE ≤ clock / QUARTER_MS * QUARTER_MS ∧ clock / QUARTER_MS * QUARTER_MS ≤ MAX_DATE) ∧
        aggregateWindow P bucket contributions (lastHour d clock) 6 = some six ∧
        aggregateWindow P bucket contributions (lastHour d clock) 24 = some twentyFour ∧
        aggregate = ⟨publishedPayload P signer clock bucket six twentyFour,
          signer.ed25519Sign (publishedPayload P signer clock bucket six twentyFour)⟩ := by
  constructor
  · intro hsnap
    obtain ⟨generatedAt, hgenerated, hsnap⟩ := Option.bind_eq_some_iff.mp hsnap
    obtain ⟨windowEnd, hwindowEnd, hsnap⟩ := Option.bind_eq_some_iff.mp hsnap
    obtain ⟨bucket, hbucket, hsnap⟩ := Option.bind_eq_some_iff.mp hsnap
    obtain ⟨six, hsix, hsnap⟩ := Option.bind_eq_some_iff.mp hsnap
    obtain ⟨twentyFour, htwentyFour, hsnap⟩ := Option.bind_eq_some_iff.mp hsnap
    obtain rfl := Option.some.inj hsnap
    obtain ⟨hrange, rfl⟩ := toISOString_eq_some.mp hgenerated
    cases hdelay : P.delayHours with
    | inf neg => simp [hdelay, delayed, floorHour] at hwindowEnd
    | nan => simp [hdelay, delayed, floorHour] at hwindowEnd
    | fin d =>
      rw [hdelay] at hwindowEnd
      obtain rfl : lastHour d clock = windowEnd := Option.some.inj hwindowEnd
      exact ⟨d, bucket, six, twentyFour, rfl, hbucket, hrange, hsix, htwentyFour, by rw [publishedPayload, hdelay]⟩
  · rintro ⟨d, bucket, six, twentyFour, hdelay, hbucket, hrange, hsix, htwentyFour, rfl⟩
    have hgenerated := toISOString_eq_some.mpr ⟨hrange, rfl⟩
    have hwindowEnd : floorHour (delayed clock P.delayHours) = some (lastHour d clock) := by
      rw [hdelay]
      rfl
    unfold snapshotAggregate
    simp only [hgenerated, hwindowEnd, hbucket, hsix, htwentyFour, Option.bind_eq_bind, Option.bind_some]
    rfl

end Snapshot

/-! ### A delay that is no number of quarters of an hour -/

/-- A delay of six hours and seven minutes and a half. -/
def eighthHour : SnapshotConfig where
  minimumCohort := .fin 5
  delayHours := .fin (49 / 8)
  bucketBytes := some (1024 * 1024 * 1024)
  minimumCohort_ok := by decide
  delayHours_ok := by norm_num [JsNumber.lt, Relay.RELAY_DELAY_HOURS]

/-- A key of zeros whose signatures are zeros. -/
def zeroPair : KeyPair fun _ _ _ => true where
  pub := String.ofList (List.replicate 64 '0')
  ed25519Sign _ := String.ofList (List.replicate 128 '0')
  pub_hex := by decide
  signature_hex _ := by decide +kernel
  verified _ := rfl

end ShadeTree.Bootnode.RelaySnapshot
