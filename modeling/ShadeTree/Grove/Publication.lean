import ShadeTree.Grove.Settlements

/-!
# What is published (`buildPublicOnchainActivity` and `validPublicOnchainActivity` in `lib/grove-onchain.mjs`)

The builder projects an observation on what may be told: a count below the cohort is left out, and with the count of
settlements their value.  The validator is what every reader asks of a record.
-/

namespace ShadeTree.Grove.Collector

open ShadeTree.Lib

/-! ### The record -/

/-- `{ status, [key] }` or `{ status, suppressionReason }`. -/
inductive PublicMetric where
  | available (count : ℕ)
  | suppressed (suppressionReason : String)
  deriving DecidableEq

/-- `membership` and `enforcement`; the latter has no `duplicatePolicy`. -/
structure PublicCounts where
  definition : String
  duplicatePolicy : Option String
  staked : PublicMetric
  paid : PublicMetric
  deriving DecidableEq

inductive PublicValue where
  | unavailable (unavailableReason : String)
  | suppressed (suppressionReason : String)
  | available (completedAccesses : ℕ) (atomicValue : String) (asset : ObservedAsset)
  deriving DecidableEq

structure PublicSettlements where
  definition : String
  attributionRule : String
  value : PublicValue
  deriving DecidableEq

structure PublicSource where
  chainId : ℤ
  finalizedBlock : String
  finalizedBlockHash : String
  finalizedBlockTime : Time
  finalityConfirmations : ℤ
  deriving DecidableEq

structure PublicActivity where
  definition : String
  generatedAt : Time
  delayHours : ℤ
  minimumCohort : ℤ
  source : PublicSource
  membership : PublicCounts
  settlements : PublicSettlements
  enforcement : PublicCounts
  deriving DecidableEq

def GROVE_ONCHAIN_DEFINITION : String := "finalized-v4-onchain-activity"

def GROVE_ONCHAIN_MINIMUM_COHORT : ℤ := 5

def GROVE_ONCHAIN_DELAY_HOURS : ℤ := 6

def HOUR_MS : ℤ := 60 * 60000

/-! ### The builder -/

def publicCount (count : ℕ) (minimumCohort : ℤ) : PublicMetric :=
  if minimumCohort ≤ count then .available count else .suppressed "minimum-cohort"

def publicValue (asset : ObservedAsset) (minimumCohort : ℤ) : Option Settlements → PublicValue
  | none => .unavailable "attribution-unavailable"
  | some settlements =>
    if (settlements.completedAccesses : ℤ) < minimumCohort then .suppressed "minimum-cohort"
    else .available settlements.completedAccesses settlements.atomicValue asset

/-- `buildPublicOnchainActivity(observation, { minimumCohort, delayHours })`; `none` is a value that is no integer, and
one that is not given is its default. -/
def buildPublicOnchainActivity (observation : Observation) (minimumCohort delayHours : Option ℤ) :
    Except CollectFail PublicActivity :=
  match minimumCohort, delayHours with
  | some minimumCohort, some delayHours =>
    if minimumCohort < 5 ∨ delayHours < 6 then .error .privacyPolicy
    else .ok {
      definition := GROVE_ONCHAIN_DEFINITION
      generatedAt := .iso observation.generatedAt
      delayHours := delayHours
      minimumCohort := minimumCohort
      source := ⟨observation.source.chainId, observation.source.finalizedBlock, observation.source.finalizedBlockHash,
        .iso observation.source.finalizedBlockTime, observation.source.finalityConfirmations⟩
      membership := ⟨"active-commitments-at-finalized-block", some "separate-contract-classes-no-cross-set-dedup",
        publicCount observation.activeStakedCommitments minimumCohort,
        publicCount observation.activePaidCommitments minimumCohort⟩
      settlements := ⟨"finalized-settlement-linked-to-finalized-insert", "signed-registrar-chain-verified-v1",
        publicValue observation.asset minimumCohort observation.settlements⟩
      enforcement := ⟨"finalized-contract-slash-events", none, publicCount observation.stakedSlashes minimumCohort,
        publicCount observation.paidSlashes minimumCohort⟩ }
  | _, _ => .error .privacyPolicy

/-! ### The validator -/

/-- `decimalU64(value)`. -/
def decimalU64 (value : String) : Option ℕ :=
  let digits := value.toList
  if digits = ['0'] ∨
      (digits.all Char.isDigit ∧ digits.head? ≠ some '0' ∧ 1 ≤ digits.length ∧ digits.length ≤ 20) then
    if Nat.ofDigitChars 10 digits 0 < 2 ^ 64 then some (Nat.ofDigitChars 10 digits 0) else none
  else none

def validPublicMetric (minimumCohort : ℤ) : PublicMetric → Bool
  | .available count => safeCount count && minimumCohort ≤ count
  | .suppressed suppressionReason => suppressionReason == "minimum-cohort"

def validPublicValue (E : Ethers) (chainId minimumCohort : ℤ) : PublicValue → Bool
  | .unavailable unavailableReason => unavailableReason == "attribution-unavailable"
  | .suppressed suppressionReason => suppressionReason == "minimum-cohort"
  | .available completedAccesses atomicValue asset =>
    safeCount completedAccesses && minimumCohort ≤ completedAccesses && (decimalUint256 atomicValue).any (0 < ·) &&
      asset.chainId == chainId && (E.normalizedAddress asset.address).isSome && 0 ≤ asset.decimals &&
        asset.decimals ≤ 255 && symbolShape asset.symbol

/-- `validPublicOnchainActivity(value, { observedAt })`; `none` is an `observedAt` that is not given. -/
def validPublicOnchainActivity (E : Ethers) (value : PublicActivity) (observedAt : Option ℤ) : Bool :=
  match value.generatedAt, value.source.finalizedBlockTime with
  | .iso generated, .iso blockTime =>
    let observed := observedAt.getD generated
    value.definition == GROVE_ONCHAIN_DEFINITION && generated ≤ observed + 5 * 60000 &&
      observed - 60 * 60000 ≤ generated && 6 ≤ value.delayHours && 5 ≤ value.minimumCohort &&
      value.source.chainId == 11155111 && (decimalU64 value.source.finalizedBlock).isSome &&
      (lowerHash value.source.finalizedBlockHash).isSome && blockTime ≤ generated - value.delayHours * HOUR_MS &&
      1 ≤ value.source.finalityConfirmations &&
      value.membership.definition == "active-commitments-at-finalized-block" &&
      value.membership.duplicatePolicy == some "separate-contract-classes-no-cross-set-dedup" &&
      validPublicMetric value.minimumCohort value.membership.staked &&
      validPublicMetric value.minimumCohort value.membership.paid &&
      value.enforcement.definition == "finalized-contract-slash-events" && value.enforcement.duplicatePolicy == none &&
      validPublicMetric value.minimumCohort value.enforcement.staked &&
      validPublicMetric value.minimumCohort value.enforcement.paid &&
      value.settlements.definition == "finalized-settlement-linked-to-finalized-insert" &&
      value.settlements.attributionRule == "signed-registrar-chain-verified-v1" &&
      validPublicValue E value.source.chainId value.minimumCohort value.settlements.value
  | _, _ => false

/-! ### What a record tells -/

/-- The counts that a metric shows. -/
def PublicMetric.counts : PublicMetric → List ℕ
  | .available count => [count]
  | .suppressed _ => []

def PublicValue.counts : PublicValue → List ℕ
  | .available completedAccesses _ _ => [completedAccesses]
  | .unavailable _ | .suppressed _ => []

/-- Every count that a record shows. -/
def PublicActivity.counts (record : PublicActivity) : List ℕ :=
  record.membership.staked.counts ++ record.membership.paid.counts ++ record.settlements.value.counts ++
    record.enforcement.staked.counts ++ record.enforcement.paid.counts

/-- Counts that are the same, or both below the cohort. -/
def Alike (minimumCohort : ℤ) (count count' : ℕ) : Prop :=
  count = count' ∨ (count : ℤ) < minimumCohort ∧ (count' : ℤ) < minimumCohort

/-- Settlements that are the same, or both of too few accesses, whatever their values are. -/
inductive AlikeSettlements (minimumCohort : ℤ) : Option Settlements → Option Settlements → Prop where
  | refl (settlements : Option Settlements) : AlikeSettlements minimumCohort settlements settlements
  | below (settlements settlements' : Settlements) (h : (settlements.completedAccesses : ℤ) < minimumCohort)
    (h' : (settlements'.completedAccesses : ℤ) < minimumCohort) :
    AlikeSettlements minimumCohort (some settlements) (some settlements')

/-- Observations that differ in nothing but counts below the cohort, and the value that goes with such a count. -/
structure Indistinguishable (minimumCohort : ℤ) (obs obs' : Observation) : Prop where
  generatedAt : obs.generatedAt = obs'.generatedAt
  source : obs.source = obs'.source
  activeStakedCommitments : Alike minimumCohort obs.activeStakedCommitments obs'.activeStakedCommitments
  activePaidCommitments : Alike minimumCohort obs.activePaidCommitments obs'.activePaidCommitments
  settlements : AlikeSettlements minimumCohort obs.settlements obs'.settlements
  stakedSlashes : Alike minimumCohort obs.stakedSlashes obs'.stakedSlashes
  paidSlashes : Alike minimumCohort obs.paidSlashes obs'.paidSlashes
  asset : obs.asset = obs'.asset

/-! ### What a collection can report -/

section Reported

variable {E : Ethers} {target : Target} {rpcs : List Rpc}

lemma readCounter_ok {role : Role} {method : String} {blockNumber : ℤ} {count : ℕ}
    (h : readCounter E rpcs role method blockNumber = .ok count) : safeCount count = true := by
  obtain ⟨result, -, h⟩ := bind_ok.mp h
  split at h
  · cases h
  · split at h
    · next hsafe => exact Except.ok.inj h ▸ hsafe
    · cases h

lemma reduceEvent_safe {isAddress : String → Bool} {chainId : ℤ} {state next : Activity} {event : ActivityEvent}
    (h : reduceEvent isAddress chainId state event = .ok next)
    (hsafe : safeCount state.stakedSlashes = true ∧ safeCount state.paidSlashes = true) :
    safeCount next.stakedSlashes = true ∧ safeCount next.paidSlashes = true := by
  unfold reduceEvent at h
  split at h
  · cases h
  · split at h
    · cases h
    · split at h
      · exact Except.ok.inj h ▸ hsafe
      · split at h
        · cases h
        · split at h
          · cases h
          · split at h
            · next hcounts =>
              obtain rfl := Except.ok.inj h
              exact hcounts
            · cases h

/-- The slashes that are replayed are few enough, or the replay stops. -/
lemma reduceActivityEvents_safe {isAddress : String → Bool} {chainId : ℤ} {events : List ActivityEvent} {state : Activity}
    (h : reduceActivityEvents isAddress chainId none events = .ok state) :
    safeCount state.stakedSlashes = true ∧ safeCount state.paidSlashes = true := by
  unfold reduceActivityEvents at h
  split at h
  · cases h
  · have hstart : safeCount (Option.getD none Activity.start).stakedSlashes = true ∧
        safeCount (Option.getD none Activity.start).paidSlashes = true := ⟨rfl, rfl⟩
    revert hstart h
    generalize Option.getD none Activity.start = start
    induction events generalizing start with
    | nil =>
      intro h hstart
      obtain rfl := Except.ok.inj h
      exact hstart
    | cons event events ih =>
      intro h hstart
      obtain ⟨next, hnext, hrest⟩ := foldlM_cons_ok.mp h
      refine ih next hrest ?_
      exact reduceEvent_safe hnext hstart

lemma isHex_toLower {c : Char} (h : isHex c = true) : isHex c.toLower = true := by
  unfold Char.toLower
  split
  · next hupper =>
    simp only [isHex, Bool.or_eq_true, Bool.and_eq_true, decide_eq_true_eq, Char.isDigit, Char.le_def,
      UInt32.le_iff_toNat_le, UInt32.toNat_add] at h hupper ⊢
    simp at h hupper ⊢
    omega
  · exact h

/-- A hash in lower case is one. -/
lemma lowerHash_toLower {value hash : String} (h : lowerHash value = some hash) : (lowerHash hash).isSome := by
  unfold lowerHash at h
  split at h
  · next hex htext =>
    split at h
    · next hhex =>
      obtain rfl := Option.some.inj h
      have hlower : value.toLower.toList = '0' :: 'x' :: hex.map Char.toLower := by
        rw [String.toLower, String.toList_map, htext]
        rfl
      have hall : (hex.map Char.toLower).all isHex = true := by
        rw [List.all_eq_true]
        intro c hc
        obtain ⟨d, hd, rfl⟩ := List.mem_map.mp hc
        exact isHex_toLower (List.all_eq_true.mp hhex.2 d hd)
      have hlen : (hex.map Char.toLower).length = 64 := by rw [List.length_map, hhex.1]
      unfold lowerHash
      rw [hlower]
      show (if (hex.map Char.toLower).length = 64 ∧ (hex.map Char.toLower).all isHex then
        some value.toLower.toLower else none).isSome = true
      rw [if_pos ⟨hlen, hall⟩, Option.isSome_some]
    · cases h
  · cases h

lemma decimalU64_toString {n : ℕ} (hn : n < 2 ^ 64) : (decimalU64 (toString n)).isSome := by
  have htext : (toString n).toList = Decimal.digitsText n := by
    rw [Nat.toString_eq_repr, Nat.toList_repr, Decimal.digitsText]
  have hvalue : Nat.ofDigitChars 10 (Decimal.digitsText n) 0 = n := Nat.ofDigitChars_ten_toDigits
  have hform : Decimal.digitsText n = ['0'] ∨ ((Decimal.digitsText n).all Char.isDigit ∧
      (Decimal.digitsText n).head? ≠ some '0' ∧ 1 ≤ (Decimal.digitsText n).length ∧
        (Decimal.digitsText n).length ≤ 20) := by
    rcases Nat.eq_zero_or_pos n with rfl | hpos
    · exact .inl rfl
    · refine .inr ⟨List.all_eq_true.mpr fun c hc => Decimal.isDigit_of_mem hc, Decimal.digitsText_head hpos,
        Nat.length_toDigits_pos, (Nat.length_toDigits_le_iff (by decide) (by decide)).mpr ?_⟩
      exact lt_of_lt_of_le hn (by decide)
  unfold decimalU64
  simp only [htext, hform, if_true, hvalue, hn, Option.isSome_some]

lemma toISOString_eq_some {ms t : ℤ} (h : toISOString ms = some t) : t = ms := by
  unfold toISOString at h
  split at h
  · exact (Option.some.inj h).symm
  · cases h

lemma delayedBlock_ok {now number time : ℤ} {hash : String} (hlive : Live E target)
    (h : delayedBlock target rpcs now = .ok (number, hash, time)) :
    (0 ≤ number ∧ number ≤ MAX_SAFE_INTEGER) ∧ (lowerHash hash).isSome ∧ time ≤ now - ISO_DELAY_MS := by
  unfold delayedBlock at h
  split at h
  · next cutoff hdate =>
    obtain ⟨now', hnow, hcutoff⟩ := Option.bind_eq_some_iff.mp hdate
    obtain rfl := toISOString_eq_some hnow
    obtain rfl := toISOString_eq_some hcutoff
    obtain ⟨block, -, h⟩ := bind_ok.mp h
    split at h
    · next block =>
      split at h
      · next lower ms hpair =>
        obtain ⟨hnumber, h⟩ := failIf_bind_ok.mp h
        obtain ⟨hboundary, h⟩ := failIf_bind_ok.mp h
        obtain ⟨-, h⟩ := failIf_bind_ok.mp h
        cases h
        simp only [isSafeInteger, Bool.or_eq_false_iff, Bool.not_eq_false', Bool.and_eq_true, decide_eq_true_eq,
          decide_eq_false_iff_not, not_lt] at hnumber hboundary
        exact ⟨⟨hlive.startsAtBlock.trans hboundary.1, hnumber.1.2⟩, lowerHash_toLower (Prod.mk.inj hpair).1, hnumber.2⟩
      · cases h
    · cases h
  · cases h

/-- What settlements can be reported. -/
structure Settled (settlements : Settlements) : Prop where
  safe : safeCount settlements.completedAccesses = true
  value : ∃ total, settlements.atomicValue = toString total ∧ (0 < settlements.completedAccesses → 0 < total)

lemma length_le_sum_map {value : Fact → ℕ} {facts : List Fact} (h : ∀ fact ∈ facts, 0 < value fact) :
    facts.length ≤ (facts.map value).sum := by
  induction facts with
  | nil => exact le_rfl
  | cons fact facts ih =>
    have hfirst := h fact List.mem_cons_self
    have hrest := ih fun other hother => h other (List.mem_cons_of_mem _ hother)
    rw [List.length_cons, List.map_cons, List.sum_cons]
    omega

lemma collectSettlements_ok {finalizedBlock : ℤ} {aggregate : Option RegistrarAggregate} {settlements : Settlements}
    (h : collectSettlements E target rpcs finalizedBlock aggregate = .ok (some settlements)) : Settled settlements := by
  cases aggregate with
  | none => cases h
  | some aggregate =>
    obtain ⟨aggregate', haggregate, hsettle⟩ := bind_ok.mp h
    obtain ⟨heq, hlen, hvalid⟩ := validateRegistrarAggregate_ok haggregate
    subst aggregate'
    obtain ⟨⟨atomicValue, completedAccesses⟩, hloop, hobs⟩ := bind_ok.mp hsettle
    obtain rfl := Option.some.inj (Except.ok.inj hobs)
    have hverified : ∀ fact ∈ aggregate.payload.settlements, ∀ v,
        verifySettlementFact E fact target rpcs finalizedBlock = .ok v →
          v = transferred E target rpcs fact.settlementTx :=
      fun fact hfact v hv => (verifySettlementFact_ok (hvalid fact hfact) hv).1
    obtain ⟨ha, hc, hkept⟩ := settleAll_ok hverified hloop
    have hpos : ∀ fact ∈ kept [] aggregate.payload.settlements, 0 < transferred E target rpcs fact.settlementTx :=
      fun fact hfact =>
        (verifySettlementFact_ok (hvalid fact (kept_sublist.subset hfact)) (hkept fact hfact)).2
    have hsub : (kept [] aggregate.payload.settlements).Sublist aggregate.payload.settlements := kept_sublist
    have hle := hsub.length_le.trans hlen
    have hsum := length_le_sum_map hpos
    refine ⟨decide_eq_true ?_, atomicValue, rfl, fun hsome => ?_⟩
    · unfold GROVE_ONCHAIN_MAX_COUNT
      dsimp only
      omega
    · dsimp only at hsome
      omega

/-- An asset that the validator takes. -/
def validAsset (E : Ethers) (asset : ObservedAsset) : Prop :=
  asset.chainId = 11155111 ∧ (E.normalizedAddress asset.address).isSome ∧ (0 ≤ asset.decimals ∧ asset.decimals ≤ 255) ∧
    symbolShape asset.symbol = true

lemma Collected.validAsset {events : List ActivityEvent} {aggregate : Option RegistrarAggregate} {now number : ℤ}
    {obs : Observation} {state : Activity} (h : Collected E target rpcs events aggregate now obs number state) :
    validAsset E obs.asset := by
  have hpayment := h.live.payment
  simp only [validPayment, Bool.and_eq_true, decide_eq_true_eq] at hpayment
  obtain ⟨address, haddress⟩ := Option.isSome_iff_exists.mp hpayment.1.1.1.1.1.1.2
  rw [h.asset]
  refine ⟨rfl, ?_, ⟨hpayment.1.1.1.1.1.2, hpayment.1.1.1.1.2⟩, hpayment.1.1.1.2⟩
  rw [haddress, Option.getD_some, E.normalizedAddress_idem _ _ haddress]
  rfl

end Reported

/-! ### Valid and private -/

section Publish

variable {E : Ethers} {obs obs' : Observation} {minimumCohort delayHours : ℤ}

lemma build_ok {cohort delay : Option ℤ} {record : PublicActivity}
    (h : buildPublicOnchainActivity obs cohort delay = .ok record) :
    ∃ minimumCohort delayHours, cohort = some minimumCohort ∧ delay = some delayHours ∧ 5 ≤ minimumCohort ∧
      6 ≤ delayHours := by
  unfold buildPublicOnchainActivity at h
  split at h
  · next minimumCohort delayHours =>
    split at h
    · cases h
    · next hpolicy =>
      rw [not_or, not_lt, not_lt] at hpolicy
      exact ⟨_, _, rfl, rfl, hpolicy⟩
  · cases h

lemma validPublicMetric_publicCount {count : ℕ} (h : safeCount count = true) :
    validPublicMetric minimumCohort (publicCount count minimumCohort) = true := by
  unfold publicCount
  split
  · next hle => exact Bool.and_eq_true_iff.mpr ⟨h, decide_eq_true hle⟩
  · exact beq_self_eq_true _

lemma validPublicValue_publicValue (hasset : validAsset E obs.asset) (hcohort : 5 ≤ minimumCohort)
    (hsettled : ∀ settlements, obs.settlements = some settlements → Settled settlements) :
    validPublicValue E 11155111 minimumCohort (publicValue obs.asset minimumCohort obs.settlements) = true ↔
      ∀ settlements, obs.settlements = some settlements → minimumCohort ≤ settlements.completedAccesses →
        ∃ total < 2 ^ 256, settlements.atomicValue = toString total := by
  cases hsome : obs.settlements with
  | none => exact ⟨nofun, fun _ => rfl⟩
  | some settlements =>
    obtain ⟨hsafe, total, hvalue, hpos⟩ := hsettled settlements hsome
    obtain ⟨hchain, haddress, hdecimals, hsymbol⟩ := hasset
    unfold publicValue
    dsimp only
    split
    · next hbelow =>
      refine ⟨fun _ other hother habove => ?_, fun _ => rfl⟩
      obtain rfl := Option.some.inj hother
      exact absurd hbelow (not_lt.mpr habove)
    · next habove =>
      rw [not_lt] at habove
      have hsome' : 0 < total := hpos (by omega)
      have hvalid : validPublicValue E 11155111 minimumCohort
          (.available settlements.completedAccesses settlements.atomicValue obs.asset) = true ↔
            (decimalUint256 settlements.atomicValue).any (0 < ·) = true := by
        simp [validPublicValue, hsafe, habove, hchain, haddress, hdecimals, hsymbol]
      rw [hvalid, hvalue]
      constructor
      · intro hword other hother _
        obtain ⟨n, hn, -⟩ := (Option.any_eq_true _ _).mp hword
        obtain rfl := Option.some.inj hother
        exact ⟨total, (decimalUint256_toString_eq_some.mp hn).2, hvalue⟩
      · intro h
        obtain ⟨n, hn, htext⟩ := h settlements rfl habove
        have htotal : n = total := by
          have hread := decimalUint256_toString hn
          rw [← htext, hvalue] at hread
          exact (decimalUint256_toString_eq_some.mp hread).1
        rw [decimalUint256_toString (htotal ▸ hn)]
        exact decide_eq_true hsome'

/-! #### What is not told -/

lemma le_of_mem_counts {count n : ℕ} (h : n ∈ (publicCount count minimumCohort).counts) : minimumCohort ≤ n := by
  unfold publicCount at h
  split at h
  · next hle => exact List.mem_singleton.mp h ▸ hle
  · cases h

lemma Alike.publicCount_eq {count count' : ℕ} (h : Alike minimumCohort count count') :
    publicCount count minimumCohort = publicCount count' minimumCohort := by
  rcases h with rfl | ⟨hbelow, hbelow'⟩
  · rfl
  · rw [publicCount, publicCount, if_neg (not_le.mpr hbelow), if_neg (not_le.mpr hbelow')]

lemma AlikeSettlements.publicValue_eq {asset : ObservedAsset} {settlements settlements' : Option Settlements}
    (h : AlikeSettlements minimumCohort settlements settlements') :
    publicValue asset minimumCohort settlements = publicValue asset minimumCohort settlements' := by
  cases h with
  | refl => rfl
  | below settlements settlements' hbelow hbelow' =>
    rw [publicValue, publicValue, if_pos hbelow, if_pos hbelow']

/-- The record shows no count below the cohort, and does not depend on one. -/
structure Private (obs : Observation) (minimumCohort : ℤ) (delayHours : Option ℤ) (record : PublicActivity) : Prop where
  counts : ∀ count ∈ record.counts, minimumCohort ≤ count
  independent : ∀ obs', Indistinguishable minimumCohort obs obs' →
    buildPublicOnchainActivity obs' (some minimumCohort) delayHours = .ok record

lemma private_of_build {record : PublicActivity}
    (h : buildPublicOnchainActivity obs (some minimumCohort) (some delayHours) = .ok record) :
    Private obs minimumCohort (some delayHours) record := by
  constructor
  · intro count hcount
    unfold buildPublicOnchainActivity at h
    dsimp only at h
    split at h
    · cases h
    · obtain rfl := Except.ok.inj h
      simp only [PublicActivity.counts, List.mem_append] at hcount
      rcases hcount with (((hmem | hmem) | hmem) | hmem) | hmem
      · exact le_of_mem_counts hmem
      · exact le_of_mem_counts hmem
      · unfold publicValue at hmem
        split at hmem
        · cases hmem
        · split at hmem
          · cases hmem
          · next habove => exact List.mem_singleton.mp hmem ▸ not_lt.mp habove
      · exact le_of_mem_counts hmem
      · exact le_of_mem_counts hmem
  · intro obs' hsame
    rw [← h]
    unfold buildPublicOnchainActivity
    simp only [hsame.generatedAt, hsame.source, hsame.activeStakedCommitments.publicCount_eq,
      hsame.activePaidCommitments.publicCount_eq, hsame.settlements.publicValue_eq, hsame.stakedSlashes.publicCount_eq,
      hsame.paidSlashes.publicCount_eq, hsame.asset]

end Publish

/-- **A record tells nothing below the cohort, and is valid only if the block is as old as the policy says.** The
collector asks for a block of six hours before, whatever the delay of the policy; and the values of settlements may add
up to more than a word. -/
theorem publication {E : Ethers} {target : Option Target} {rpcs : List Rpc} {events : List ActivityEvent}
    {aggregate : Option RegistrarAggregate} {now : ℤ} {obs : Observation} {cohort delay : Option ℤ}
    {record : PublicActivity} (h : collectOnchainActivity E target rpcs events aggregate now = .ok obs)
    (hbuild : buildPublicOnchainActivity obs cohort delay = .ok record) :
    ∃ minimumCohort delayHours, cohort = some minimumCohort ∧ delay = some delayHours ∧
      Private obs minimumCohort delay record ∧
      (validPublicOnchainActivity E record none = true ↔
        obs.source.finalizedBlockTime ≤ obs.generatedAt - delayHours * HOUR_MS ∧
        ∀ settlements, obs.settlements = some settlements → minimumCohort ≤ settlements.completedAccesses →
          ∃ total < 2 ^ 256, settlements.atomicValue = toString total) := by
  obtain ⟨minimumCohort, delayHours, rfl, rfl, hcohort, hdelay⟩ := build_ok hbuild
  refine ⟨minimumCohort, delayHours, rfl, rfl, private_of_build hbuild, ?_⟩
  obtain ⟨target, number, state, -, hcollected⟩ := collectOnchainActivity_ok h
  obtain ⟨⟨hnumber, hnumber'⟩, hhash, -⟩ := delayedBlock_ok hcollected.live hcollected.block
  obtain ⟨hstakedSlashes, hpaidSlashes⟩ := reduceActivityEvents_safe hcollected.events
  have hsettled : ∀ settlements, obs.settlements = some settlements → Settled settlements :=
    fun settlements hsome => collectSettlements_ok (hsome ▸ hcollected.settlements)
  rw [← validPublicValue_publicValue hcollected.validAsset hcohort hsettled]
  unfold buildPublicOnchainActivity at hbuild
  dsimp only at hbuild
  rw [if_neg (by omega)] at hbuild
  obtain rfl := Except.ok.inj hbuild
  have hblock : (decimalU64 obs.source.finalizedBlock).isSome := by
    obtain ⟨n, rfl⟩ := Int.eq_ofNat_of_zero_le hnumber
    rw [hcollected.source]
    unfold MAX_SAFE_INTEGER at hnumber'
    exact decimalU64_toString (n := n) (by omega)
  have hchain : obs.source.chainId = 11155111 := by rw [hcollected.source]
  have hconfirmations : 1 ≤ obs.source.finalityConfirmations := by
    rw [hcollected.source]
    exact hcollected.live.confirmations
  simp [validPublicOnchainActivity, hdelay, hcohort, hchain, hblock, hhash, hconfirmations,
    validPublicMetric_publicCount (readCounter_ok hcollected.staked),
    validPublicMetric_publicCount (readCounter_ok hcollected.paid),
    validPublicMetric_publicCount (hcollected.stakedSlashes ▸ hstakedSlashes),
    validPublicMetric_publicCount (hcollected.paidSlashes ▸ hpaidSlashes)]

/-- What is collected of the run without an aggregate. -/
def sampleObservation : Observation :=
  ⟨21600000, ⟨11155111, "100", wordOf '6', 0, 12⟩, 0, 0, none, 0, 0, ⟨11155111, addressOf '4', 6, "USDC"⟩⟩

lemma collect_sampleObservation : collectOnchainActivity sampleEthers (some sampleTarget) [sampleRpc] [] none 21600000 =
    .ok sampleObservation :=
  collect_sample rfl

/-- The default policy. -/
theorem publication_default : ∃ record,
    buildPublicOnchainActivity sampleObservation (some GROVE_ONCHAIN_MINIMUM_COHORT) (some GROVE_ONCHAIN_DELAY_HOURS) =
      .ok record ∧ validPublicOnchainActivity sampleEthers record none = true := by
  obtain ⟨record, hbuild⟩ : ∃ record, buildPublicOnchainActivity sampleObservation (some GROVE_ONCHAIN_MINIMUM_COHORT)
    (some GROVE_ONCHAIN_DELAY_HOURS) = .ok record := ⟨_, rfl⟩
  refine ⟨record, hbuild, ?_⟩
  obtain ⟨minimumCohort, delayHours, -, hdelay, -, hvalid⟩ := publication collect_sampleObservation hbuild
  obtain rfl := Option.some.inj hdelay
  exact hvalid.mpr ⟨by decide, fun settlements h => by cases h⟩

/-- With a delay of seven hours the collector still takes a block of six hours before. -/
theorem publication_too_young : ¬ ∀ (E : Ethers) (target : Option Target) (rpcs : List Rpc)
    (events : List ActivityEvent) (aggregate : Option RegistrarAggregate) (now : ℤ) (obs : Observation)
    (cohort delay : Option ℤ) (record : PublicActivity),
    collectOnchainActivity E target rpcs events aggregate now = .ok obs →
      buildPublicOnchainActivity obs cohort delay = .ok record → validPublicOnchainActivity E record none = true := by
  intro hall
  have hvalid := hall _ _ _ _ _ _ _ (some 5) (some 7) _ collect_sampleObservation rfl
  revert hvalid
  decide

end ShadeTree.Grove.Collector
