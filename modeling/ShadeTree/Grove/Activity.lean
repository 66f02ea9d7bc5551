import ShadeTree.Lib.Decimal
import ShadeTree.Lib.Table

/-!
# The activity of the sets (`reduceActivityEvents` in `lib/grove-onchain.mjs`)

The collector replays the membership events of both contracts into one status for each commitment, and counts the
slashes.  An event is known by its chain, contract, transaction and log index, and counts once however often it is
delivered.  Whether a text is an address is asked of a library and is a parameter.
-/

namespace ShadeTree.Grove

open ShadeTree.Lib

/-- The `code` of an error. -/
inductive Fail where
  | eventChain | eventRemoved | eventIdentity | eventCommitment | eventKind | eventCount | blockShape | blockParent
  deriving DecidableEq, Repr

def Fail.code : Fail → String
  | .eventChain => "event-chain"
  | .eventRemoved => "event-removed"
  | .eventIdentity => "event-identity"
  | .eventCommitment => "event-commitment"
  | .eventKind => "event-kind"
  | .eventCount => "event-count"
  | .blockShape => "block-shape"
  | .blockParent => "block-parent"

/-- The `kind` of an event. -/
inductive Kind where
  | stakedRegistered | stakedExiting | stakedWithdrawn | stakedSlashed | paidInserted | paidSlashed | unknown
  deriving DecidableEq, Repr

/-- An event; `logIndex` is `none` where it is no integer. -/
structure ActivityEvent where
  kind : Kind
  commitment : String
  address : String
  transactionHash : String
  logIndex : Option ℤ
  removed : Bool
  deriving DecidableEq, Repr

/-- The key of an event, in its parts. -/
structure EventKey where
  chainId : ℤ
  address : String
  transactionHash : String
  logIndex : ℤ
  deriving DecidableEq, Repr

inductive StakedStatus where
  | active | exiting | withdrawn | slashed
  deriving DecidableEq, Repr

inductive PaidStatus where
  | live | slashed
  deriving DecidableEq, Repr

/-- The state of the reducer; a member is the number its text writes. -/
structure Activity where
  seen : List EventKey
  staked : Table ℕ StakedStatus
  paid : Table ℕ PaidStatus
  stakedSlashes : ℕ
  paidSlashes : ℕ
  deriving DecidableEq

def Activity.start : Activity := ⟨[], ∅, ∅, 0, 0⟩

def GROVE_ONCHAIN_MAX_COUNT : ℕ := 100000000

def MAX_SAFE_INTEGER : ℤ := 2 ^ 53 - 1

/-- `decimalUint256(value)`. -/
def decimalUint256 (value : String) : Option ℕ :=
  let digits := value.toList
  if digits = ['0'] ∨
      (digits.all Char.isDigit ∧ digits.head? ≠ some '0' ∧ 1 ≤ digits.length ∧ digits.length ≤ 78) then
    if Nat.ofDigitChars 10 digits 0 < 2 ^ 256 then some (Nat.ofDigitChars 10 digits 0) else none
  else none

/-- The decimal text of a word is read back. -/
lemma decimalUint256_toString {n : ℕ} (hn : n < 2 ^ 256) : decimalUint256 (toString n) = some n := by
  have htext : (toString n).toList = Decimal.digitsText n := by
    rw [Nat.toString_eq_repr, Nat.toList_repr, Decimal.digitsText]
  have hvalue : Nat.ofDigitChars 10 (Decimal.digitsText n) 0 = n := Nat.ofDigitChars_ten_toDigits
  have hform : Decimal.digitsText n = ['0'] ∨ ((Decimal.digitsText n).all Char.isDigit ∧
      (Decimal.digitsText n).head? ≠ some '0' ∧ 1 ≤ (Decimal.digitsText n).length ∧
        (Decimal.digitsText n).length ≤ 78) := by
    rcases Nat.eq_zero_or_pos n with rfl | hpos
    · exact .inl rfl
    · refine .inr ⟨List.all_eq_true.mpr fun c hc => Decimal.isDigit_of_mem hc, Decimal.digitsText_head hpos,
        Nat.length_toDigits_pos, (Nat.length_toDigits_le_iff (by decide) (by decide)).mpr ?_⟩
      exact lt_of_lt_of_le hn (by decide)
  unfold decimalUint256
  simp only [htext, hform, if_true, hvalue, hn]

/-- `lowerHash(value)`. -/
def lowerHash (value : String) : Option String :=
  match value.toList with
  | '0' :: 'x' :: hex =>
    if hex.length = 64 ∧ hex.all (fun c => c.isDigit || ('a' ≤ c && c ≤ 'f') || ('A' ≤ c && c ≤ 'F')) then
      some value.toLower
    else none
  | _ => none

/-- `safeCount(value)`. -/
def safeCount (value : ℕ) : Bool := value ≤ GROVE_ONCHAIN_MAX_COUNT

namespace Activity

/-- What an event makes of the status of a member; `none` for an unknown kind. -/
def transition (state : Activity) (member : ℕ) : Kind → Option Activity
  | .stakedRegistered => some { state with staked := state.staked.insert member .active }
  | .stakedExiting => some <|
    if state.staked.lookup member = some .active then { state with staked := state.staked.insert member .exiting }
    else state
  | .stakedWithdrawn => some <|
    if state.staked.lookup member = some .exiting then { state with staked := state.staked.insert member .withdrawn }
    else state
  | .stakedSlashed => some
    { state with staked := state.staked.insert member .slashed, stakedSlashes := state.stakedSlashes + 1 }
  | .paidInserted => some { state with paid := state.paid.insert member .live }
  | .paidSlashed => some
    { state with paid := state.paid.insert member .slashed, paidSlashes := state.paidSlashes + 1 }
  | .unknown => none

end Activity

section Reduce

variable (isAddress : String → Bool) (chainId : ℤ)

def eventKey (event : ActivityEvent) : Except Fail EventKey :=
  match event.logIndex, lowerHash event.transactionHash with
  | some logIndex, some transactionHash =>
    if 0 ≤ logIndex ∧ isAddress event.address then .ok ⟨chainId, event.address.toLower, transactionHash, logIndex⟩
    else .error .eventIdentity
  | _, _ => .error .eventIdentity

/-- One turn of the loop of `reduceActivityEvents`. -/
def reduceEvent (state : Activity) (event : ActivityEvent) : Except Fail Activity :=
  if event.removed then .error .eventRemoved
  else
    match eventKey isAddress chainId event with
    | .error why => .error why
    | .ok key =>
      if key ∈ state.seen then .ok state
      else
        match decimalUint256 event.commitment with
        | none => .error .eventCommitment
        | some member =>
          match state.transition member event.kind with
          | none => .error .eventKind
          | some next =>
            if safeCount next.stakedSlashes ∧ safeCount next.paidSlashes then
              .ok { next with seen := state.seen ++ [key] }
            else .error .eventCount

/-- `reduceActivityEvents(events, { chainId, previous })`. -/
def reduceActivityEvents (previous : Option Activity) (events : List ActivityEvent) : Except Fail Activity :=
  if ¬ (0 < chainId ∧ chainId ≤ MAX_SAFE_INTEGER) then .error .eventChain
  else events.foldlM (reduceEvent isAddress chainId) (previous.getD Activity.start)

/-- What `activityCounts` returns. -/
structure ActivityCounts where
  activeStakedCommitments : ℕ
  activePaidCommitments : ℕ
  stakedSlashes : ℕ
  paidSlashes : ℕ
  deriving DecidableEq, Repr

/-- The members that have a status. -/
def countOf {Status : Type} [DecidableEq Status] (status : Status) (t : Table ℕ Status) : ℕ :=
  (t.keep fun _ s => s = status).size

def activityCounts (state : Activity) : ActivityCounts where
  activeStakedCommitments := countOf .active state.staked
  activePaidCommitments := countOf .live state.paid
  stakedSlashes := state.stakedSlashes
  paidSlashes := state.paidSlashes

/-! ### Events in parts -/

variable {isAddress chainId}

lemma foldlM_append_ok {ε σ ι : Type} {f : σ → ι → Except ε σ} {s u : σ} {p q : List ι} :
    (p ++ q).foldlM f s = .ok u ↔ ∃ t, p.foldlM f s = .ok t ∧ q.foldlM f t = .ok u := by
  rw [List.foldlM_append]
  cases h : p.foldlM f s with
  | error why => simp [bind, Except.bind]
  | ok t => simp [bind, Except.bind]

lemma foldlM_cons_ok {ε σ ι : Type} {f : σ → ι → Except ε σ} {s u : σ} {i : ι} {q : List ι} :
    (i :: q).foldlM f s = .ok u ↔ ∃ t, f s i = .ok t ∧ q.foldlM f t = .ok u := by
  rw [List.foldlM_cons]
  cases h : f s i with
  | error why => simp [bind, Except.bind]
  | ok t => simp [bind, Except.bind]

/-- Events in two batches are the events in one. -/
lemma reduceActivityEvents_append {previous : Option Activity} {events events' : List ActivityEvent} {a : Activity}
    (h : reduceActivityEvents isAddress chainId previous events = .ok a) :
    reduceActivityEvents isAddress chainId previous (events ++ events') =
      reduceActivityEvents isAddress chainId (some a) events' := by
  unfold reduceActivityEvents at h ⊢
  split at h
  · cases h
  · next hchain =>
    rw [if_neg hchain, if_neg hchain, List.foldlM_append, h]
    rfl

end Reduce

end ShadeTree.Grove
