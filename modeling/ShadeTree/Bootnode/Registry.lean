import Mathlib.Data.Rat.Floor
import ShadeTree.Bootnode.Announce
import ShadeTree.Lib.Table

/-!
# The registry of the bootnode (`makeRegistry` in `bootnode/server.mjs`)

The registry lists gateways by the onion they announced.  A record enters in one of three ways: a gateway
announces it, a peer passes it on, or it was in the file of an earlier run.  Every way looks at the tables,
waits for the checks of `verifyAnnounce`, and writes the entry when they are over.  Each stretch between two
`await`s is one function here, and what a call carries over an `await` is a `Call`.

The clock is in milliseconds; `now` is its whole seconds.  What a number that JSON reads as infinite does is
left out, and so are the file and the prober, which no check reads.
-/

namespace ShadeTree.Bootnode

open ShadeTree.Lib

structure RegistryConfig where
  ttlSec : ℚ
  minReannounceSec : ℚ
  maxEntries : ℕ
  announceRate : ℚ
  announceBurst : ℚ
  /-- `admission === "stake"`. -/
  requireStake : Bool
  /-- There is a `stake` with an `isStaked`. -/
  readsStake : Bool

def MAX_WEIGHT : ℚ := 1000

/-- `now()` in seconds. -/
def now (clock : ℤ) : ℚ := (clock / 1000 : ℤ)

/-! ### The token bucket -/

/-- `makeAnnounceBucket`. -/
structure Bucket where
  tokens : ℚ
  last : ℚ

namespace Bucket

variable (C : RegistryConfig)

def refill (t : ℚ) (b : Bucket) : Bucket :=
  if b.last < t then ⟨min C.announceBurst (b.tokens + (t - b.last) * C.announceRate), t⟩ else b

def take (t : ℚ) (b : Bucket) : Bucket × Bool :=
  if ¬ 0 < C.announceRate ∧ ¬ 0 < C.announceBurst then (b, true)
  else
    let b := b.refill C t
    if b.tokens < 1 then (b, false) else ({ b with tokens := b.tokens - 1 }, true)

def retryAfterSec (b : Bucket) : ℤ :=
  if 0 < C.announceRate then max 1 ⌈(1 - b.tokens) / C.announceRate⌉ else 1

end Bucket

/-! ### The tables -/

/-- Who hands a record in: a gateway, the file with the expiry it holds, or a peer. -/
inductive Source where
  | live
  | store (expiresAt : ℚ)
  | gossip

/-- An entry of the directory. -/
structure Entry (K : Keys) where
  checked : Checked K
  weight : ℚ
  operator : Option String
  staked : Bool
  capsSig : Option String
  expiresAt : ℚ
  lastAt : ℚ

/-- What a call waits for: the signature of the operator, its stake, or, verified, its turn to write. -/
inductive Stage where
  | operatorSig
  | stakeRead (operator : String)
  | verified (operator : Option String) (staked : Bool)

/-- A call that waits. -/
structure Call (K : Keys) where
  source : Source
  checked : Checked K
  stage : Stage

/-- What a call that waits is told. -/
inductive Answer where
  | operatorSig (ok : Bool)
  | stakeRead (staked : Except String Bool)

/-- `live`, `nonces` with the time each was added, and `bucket`. -/
structure Registry (K : Keys) where
  live : Table String (Entry K)
  nonces : Table String ℤ
  bucket : Bucket

/-- The skew `verifyAnnounce` is given. -/
def Source.skew : Source → ℚ
  | .live => DEFAULT_ANNOUNCE_SKEW
  | _ => MAX_SAFE_INTEGER

/-- The entry that a verified record becomes. -/
def entryOf {K : Keys} (C : RegistryConfig) (clock : ℤ) (source : Source) (c : Checked K)
    (operator : Option String) (staked : Bool) : Entry K where
  checked := c
  weight := max 0 (min MAX_WEIGHT (c.record.weight.getD 100))
  operator := operator
  staked := staked
  capsSig := c.record.capsSig.join
  expiresAt := match source with
    | .live => now clock + C.ttlSec
    | .store expiresAt => expiresAt
    | .gossip => c.ts + C.ttlSec
  lastAt := now clock

namespace Registry

variable {K : Keys} (C : RegistryConfig) (clock : ℤ)

/-- The registry of a bootnode that starts. -/
def start : Registry K := ⟨∅, ∅, ⟨C.announceBurst, now clock⟩⟩

/-- `sweep()`. -/
def sweep (r : Registry K) : Registry K :=
  { r with
    live := Table.keep (fun _ e => now clock < e.expiresAt) r.live
    nonces := Table.keep (fun _ seenAt => clock - C.ttlSec * 1000 ≤ seenAt) r.nonces }

/-- What `directory()` lists. -/
def directory (r : Registry K) : Table String (Entry K) := (r.sweep C clock).live

/-- The entry under the onion as the record spells it. -/
def existing (r : Registry K) (record : Option Record) : Option (Entry K) :=
  (record.bind Record.onion).bind r.live.lookup

/-- The look at `maxEntries`: a record whose onion is not listed finds room, after a sweep if need be. -/
def makeRoom (listed : Bool) (r : Registry K) : Registry K × Bool :=
  if listed ∨ Table.size r.live < C.maxEntries then (r, true)
  else
    let r := r.sweep C clock
    (r, Table.size r.live < C.maxEntries)

/-- Only a live announce is charged. -/
def charge (source : Source) (r : Registry K) : Registry K × Bool :=
  match source with
  | .live =>
    let taken := r.bucket.take C (now clock)
    ({ r with bucket := taken.1 }, taken.2)
  | _ => (r, true)

/-- `announce(rec, { fromStore })` up to the first `await`. -/
def announceHead (source : Source) (record : Option Record) (r : Registry K) :
    Registry K × Except Refusal (Checked K) :=
  let existing := r.existing record
  if existing.any fun e => now clock - e.lastAt < C.minReannounceSec then (r, .error .rateLimited)
  else
    let room := r.makeRoom C clock existing.isSome
    if !room.2 then (room.1, .error .registryFull)
    else
      let charged := room.1.charge C clock source
      if !charged.2 then (charged.1, .error (.globalRateLimited (charged.1.bucket.retryAfterSec C)))
      else
        (charged.1, verifyHead K (now clock) source.skew
          (fun key => (charged.1.nonces.lookup key).isSome) record)

/-- `admitGossip(rec)` up to the first `await`; it does not look at the replay cache. -/
def gossipHead (record : Option Record) (r : Registry K) : Registry K × Except Refusal (Checked K) :=
  match record.bind Record.onion, record.bind Record.ts with
  | none, _ => (r, .error .noOnion)
  | _, none => (r, .error (.staleTs none))
  | _, some ts =>
    let existing := r.existing record
    if ts + C.ttlSec ≤ now clock then (r, .error .staleGossip)
    else if existing.any fun e => ts + C.ttlSec ≤ e.expiresAt then (r, .error .freshExisting)
    else
      let room := r.makeRoom C clock existing.isSome
      if !room.2 then (room.1, .error .registryFull)
      else (room.1, verifyHead K (now clock) Source.gossip.skew (fun _ => false) record)

def head (source : Source) (record : Option Record) (r : Registry K) :
    Registry K × Except Refusal (Checked K) :=
  match source with
  | .gossip => r.gossipHead C clock record
  | _ => r.announceHead C clock source record

/-- `seenNonce.add`. -/
def addNonce (source : Source) (c : Checked K) (r : Registry K) : Registry K :=
  match source with
  | .gossip => r
  | _ => { r with nonces := r.nonces.insert c.nonceKey clock }

/-- The end of `verifyAnnounce`. -/
def finish (source : Source) (c : Checked K) (operator : Option String) (staked : Bool) (r : Registry K) :
    Registry K × Except Refusal (Call K) :=
  if C.requireStake ∧ ¬ staked then (r, .error .notStaked)
  else (r.addNonce clock source c, .ok ⟨source, c, .verified operator staked⟩)

/-- A call up to its first `await`. -/
def begin (source : Source) (record : Option Record) (r : Registry K) :
    Registry K × Except Refusal (Call K) :=
  let headed := r.head C clock source record
  match headed.2 with
  | .error why => (headed.1, .error why)
  | .ok c =>
    if c.record.operator.isSome ∧ c.record.operatorSig.isSome then (headed.1, .ok ⟨source, c, .operatorSig⟩)
    else headed.1.finish C clock source c none false

/-- A call from one `await` to the next; `none` if it does not wait for that. -/
def resume (call : Call K) (answer : Answer) (r : Registry K) :
    Option (Registry K × Except Refusal (Call K)) :=
  match call.stage, answer with
  | .operatorSig, .operatorSig ok =>
    let operator := (call.checked.record.operator.getD "").toLower
    if !ok then some (r, .error .badOperatorSig)
    else if C.readsStake then some (r, .ok { call with stage := .stakeRead operator })
    else some (r.finish C clock call.source call.checked (some operator) false)
  | .stakeRead operator, .stakeRead (.ok staked) =>
    some (r.finish C clock call.source call.checked (some operator) staked)
  | .stakeRead operator, .stakeRead (.error message) =>
    if C.requireStake then some (r, .error (.stakeCheckFailed message))
    else some (r.finish C clock call.source call.checked (some operator) false)
  | _, _ => none

/-- `live.set`, after the last `await`. -/
def accept (source : Source) (c : Checked K) (operator : Option String) (staked : Bool) (r : Registry K) :
    Registry K :=
  { r with live := r.live.insert c.onion (entryOf C clock source c operator staked) }

end Registry

/-! ### What the functions do -/

namespace Registry

variable {K : Keys} {C : RegistryConfig} {clock : ℤ} {source : Source} {record : Option Record}
  {r r' : Registry K} {c : Checked K} {call : Call K} {answer : Except Refusal (Call K)}

/-- The tables are what they were, or what a sweep leaves of them. -/
def Pruned (C : RegistryConfig) (clock : ℤ) (r r' : Registry K) : Prop :=
  (r'.live = r.live ∧ r'.nonces = r.nonces) ∨
    (r'.live = r.directory C clock ∧ r'.nonces = (r.sweep C clock).nonces)

lemma directory_eq : r.directory C clock = Table.keep (fun _ e => now clock < e.expiresAt) r.live := rfl

lemma Pruned.keeps (h : Pruned C clock r r') : ∃ p, r'.live = Table.keep p r.live := by
  rcases h with ⟨hlive, -⟩ | ⟨hlive, -⟩
  · exact ⟨_, hlive.trans Table.keep_true.symm⟩
  · exact ⟨_, hlive.trans directory_eq⟩

/-- A nonce goes only when it is too old. -/
lemma Pruned.nonce {key : String} {seenAt : ℤ} (h : Pruned C clock r r')
    (hseen : r.nonces.lookup key = some seenAt) :
    r'.nonces.lookup key = some seenAt ∨ (seenAt : ℚ) < clock - C.ttlSec * 1000 := by
  rcases h with ⟨-, hnonces⟩ | ⟨-, hnonces⟩
  · exact .inl (hnonces ▸ hseen)
  · by_cases hold : clock - C.ttlSec * 1000 ≤ (seenAt : ℚ)
    · left
      rw [hnonces]
      unfold sweep
      rw [Table.lookup_keep, hseen, Option.filter_some, if_pos (decide_eq_true hold)]
    · exact .inr (not_le.mp hold)

/-- What a stretch of code may do to the replay cache: a nonce stays, is added again now, or is too old. -/
structure Ages (C : RegistryConfig) (clock : ℤ) (r r' : Registry K) : Prop where
  kept : ∀ key seenAt, r.nonces.lookup key = some seenAt → r'.nonces.lookup key = some seenAt ∨
    r'.nonces.lookup key = some clock ∨ (seenAt : ℚ) < clock - C.ttlSec * 1000
  added : ∀ key seenAt, r'.nonces.lookup key = some seenAt →
    r.nonces.lookup key = some seenAt ∨ seenAt = clock

lemma Ages.of_eq (h : r'.nonces = r.nonces) : Ages C clock r r' :=
  ⟨fun _ _ hseen => .inl (h ▸ hseen), fun _ _ hseen => .inl (h ▸ hseen)⟩

lemma Pruned.ages (h : Pruned C clock r r') : Ages C clock r r' := by
  refine ⟨fun key seenAt hseen => (h.nonce hseen).imp_right .inr, fun key seenAt hseen => .inl ?_⟩
  rcases h with ⟨-, hnonces⟩ | ⟨-, hnonces⟩
  · rwa [hnonces] at hseen
  · rw [hnonces] at hseen
    exact (Table.lookup_keep_eq_some.mp hseen).1

lemma Ages.addNonce (h : Ages C clock r r') : Ages C clock r (r'.addNonce clock source c) := by
  by_cases hsource : source = .gossip
  · subst hsource
    exact h
  have hnonces : (r'.addNonce clock source c).nonces = r'.nonces.insert c.nonceKey clock := by
    cases source with
    | gossip => exact absurd rfl hsource
    | _ => rfl
  refine ⟨fun key seenAt hseen => ?_, fun key seenAt hseen => ?_⟩
  · rw [hnonces]
    by_cases hkey : key = c.nonceKey
    · subst hkey
      exact .inr (.inl (AList.lookup_insert _))
    · rw [AList.lookup_insert_ne hkey]
      exact h.kept key seenAt hseen
  · rw [hnonces] at hseen
    by_cases hkey : key = c.nonceKey
    · subst hkey
      rw [AList.lookup_insert] at hseen
      exact .inr (Option.some.inj hseen).symm
    · rw [AList.lookup_insert_ne hkey] at hseen
      exact h.added key seenAt hseen

lemma makeRoom_pruned {listed : Bool} : Pruned C clock r (r.makeRoom C clock listed).1 := by
  unfold makeRoom
  split
  · exact .inl ⟨rfl, rfl⟩
  · exact .inr ⟨rfl, rfl⟩

lemma charge_tables : (r.charge C clock source).1.live = r.live ∧
    (r.charge C clock source).1.nonces = r.nonces := by
  cases source <;> exact ⟨rfl, rfl⟩

lemma charge_pruned {listed : Bool} :
    Pruned C clock r ((r.makeRoom C clock listed).1.charge C clock source).1 := by
  have hroom : Pruned C clock r (r.makeRoom C clock listed).1 := makeRoom_pruned
  unfold Pruned at hroom ⊢
  rwa [charge_tables.1, charge_tables.2]

/-- The look at `maxEntries` lets through what is listed, or what has room. -/
lemma makeRoom_room {listed : Bool} (h : (r.makeRoom C clock listed).2 = true) :
    listed = true ∧ (r.makeRoom C clock listed).1 = r ∨
      Table.size (r.makeRoom C clock listed).1.live < C.maxEntries := by
  unfold makeRoom at h ⊢
  split
  · next hroom => exact hroom.imp_left fun hlisted => ⟨hlisted, rfl⟩
  · next hroom =>
    rw [if_neg hroom] at h
    exact .inr (of_decide_eq_true h)

/-- A record that reaches the first `await` was in time, its nonce was not seen, and it had room. -/
structure Passes (C : RegistryConfig) (clock : ℤ) (source : Source) (record : Option Record)
    (r : Registry K) (c : Checked K) : Prop where
  record_eq : record = some c.record
  fresh : |now clock - c.ts| ≤ source.skew
  unseen : source ≠ .gossip → r.nonces.lookup c.nonceKey = none
  room : c.onion ∈ r.live ∨ Table.size r.live < C.maxEntries

/-- The room that was made for a record is there for its onion. -/
lemma room_of_existing {listed : Bool} (hrecord : record = some c.record)
    (hlisted : listed = (r.existing record).isSome) (hroom : ¬ (!(r.makeRoom C clock listed).2) = true) :
    c.onion ∈ (r.makeRoom C clock listed).1.live ∨
      Table.size (r.makeRoom C clock listed).1.live < C.maxEntries := by
  have hok : (r.makeRoom C clock listed).2 = true := by simpa using hroom
  rcases makeRoom_room hok with ⟨htrue, heq⟩ | hlt
  · left
    rw [heq]
    rw [hlisted, hrecord] at htrue
    unfold existing at htrue
    rw [Option.bind_some, c.onion_eq, Option.bind_some] at htrue
    exact AList.lookup_isSome.mp htrue
  · exact .inr hlt

lemma announceHead_pruned : Pruned C clock r (r.announceHead C clock source record).1 := by
  unfold announceHead
  dsimp only
  split
  · exact .inl ⟨rfl, rfl⟩
  split
  · exact makeRoom_pruned
  split
  · exact charge_pruned
  · exact charge_pruned

lemma announceHead_passes (h : (r.announceHead C clock source record).2 = .ok c) :
    Passes C clock source record (r.announceHead C clock source record).1 c := by
  unfold announceHead at h ⊢
  dsimp only at h ⊢
  split at h
  · cases h
  next hslow =>
  split at h
  · cases h
  next hroom =>
  split at h
  · cases h
  next hcharge =>
  rw [if_neg hslow, if_neg hroom, if_neg hcharge]
  obtain ⟨hrecord, hfresh, hseen⟩ := verifyHead_ok h
  refine ⟨hrecord, hfresh, fun _ => ?_, ?_⟩
  · exact Option.isNone_iff_eq_none.mp (Option.isSome_eq_false_iff.mp hseen)
  · rw [charge_tables.1]
    exact room_of_existing hrecord rfl hroom

lemma gossipHead_pruned : Pruned C clock r (r.gossipHead C clock record).1 := by
  unfold gossipHead
  dsimp only
  split
  · exact .inl ⟨rfl, rfl⟩
  · exact .inl ⟨rfl, rfl⟩
  split
  · exact .inl ⟨rfl, rfl⟩
  split
  · exact .inl ⟨rfl, rfl⟩
  split
  · exact makeRoom_pruned
  · exact makeRoom_pruned

lemma gossipHead_passes (h : (r.gossipHead C clock record).2 = .ok c) :
    Passes C clock .gossip record (r.gossipHead C clock record).1 c := by
  unfold gossipHead at h ⊢
  dsimp only at h ⊢
  split at h
  · cases h
  · cases h
  split at h
  · cases h
  next hlive =>
  split at h
  · cases h
  next hnewer =>
  split at h
  · cases h
  next hroom =>
  obtain ⟨hrecord, hfresh, -⟩ := verifyHead_ok h
  simp only [if_neg hlive, if_neg hnewer, if_neg hroom]
  exact ⟨hrecord, hfresh, fun hsource => (hsource rfl).elim, room_of_existing hrecord rfl hroom⟩

lemma head_pruned : Pruned C clock r (r.head C clock source record).1 := by
  cases source with
  | gossip => exact gossipHead_pruned
  | live => exact announceHead_pruned
  | store x => exact announceHead_pruned

lemma head_passes (h : (r.head C clock source record).2 = .ok c) :
    Passes C clock source record (r.head C clock source record).1 c := by
  cases source with
  | gossip => exact gossipHead_passes h
  | live => exact announceHead_passes h
  | store x => exact announceHead_passes h

/-- The end of the checks refuses, or adds the nonce. -/
lemma finish_cases {operator : Option String} {staked : Bool}
    (h : r.finish C clock source c operator staked = (r', answer)) :
    (∃ why, answer = .error why ∧ r' = r) ∨
      answer = .ok ⟨source, c, .verified operator staked⟩ ∧ r' = r.addNonce clock source c := by
  unfold finish at h
  split at h
  · obtain ⟨rfl, rfl⟩ := Prod.mk.inj h
    exact .inl ⟨_, rfl, rfl⟩
  · obtain ⟨rfl, rfl⟩ := Prod.mk.inj h
    exact .inr ⟨rfl, rfl⟩

/-- What a call does up to its first `await`. -/
lemma begin_cases (h : r.begin C clock source record = (r', answer)) :
    ∃ r₁, Pruned C clock r r₁ ∧ ((∃ why, answer = .error why ∧ r' = r₁) ∨
      ∃ c, Passes C clock source record r₁ c ∧ ((answer = .ok ⟨source, c, .operatorSig⟩ ∧ r' = r₁) ∨
        answer = .ok ⟨source, c, .verified none false⟩ ∧ r' = r₁.addNonce clock source c)) := by
  refine ⟨(r.head C clock source record).1, head_pruned, ?_⟩
  unfold begin at h
  dsimp only at h
  split at h
  · obtain ⟨rfl, rfl⟩ := Prod.mk.inj h
    exact .inl ⟨_, rfl, rfl⟩
  next c hc =>
  split at h
  · obtain ⟨rfl, rfl⟩ := Prod.mk.inj h
    exact .inr ⟨c, head_passes hc, .inl ⟨rfl, rfl⟩⟩
  · rcases finish_cases h with ⟨why, rfl, rfl⟩ | ⟨rfl, rfl⟩
    · exact .inl ⟨why, rfl, rfl⟩
    · exact .inr ⟨c, head_passes hc, .inr ⟨rfl, rfl⟩⟩

/-- What a call does from one `await` to the next. -/
lemma resume_cases {told : Answer} (h : r.resume C clock call told = some (r', answer)) :
    (∀ operator staked, call.stage ≠ .verified operator staked) ∧
    ((∃ why, answer = .error why ∧ r' = r) ∨
      (∃ operator, answer = .ok { call with stage := .stakeRead operator } ∧ r' = r) ∨
      ∃ operator staked, answer = .ok ⟨call.source, call.checked, .verified operator staked⟩ ∧
        r' = r.addNonce clock call.source call.checked) := by
  have hfinish : ∀ {operator staked},
      some (r.finish C clock call.source call.checked operator staked) = some (r', answer) →
      (∃ why, answer = .error why ∧ r' = r) ∨
      (∃ operator, answer = .ok { call with stage := .stakeRead operator } ∧ r' = r) ∨
      ∃ operator staked, answer = .ok ⟨call.source, call.checked, .verified operator staked⟩ ∧
        r' = r.addNonce clock call.source call.checked := by
    intro operator staked h
    rcases finish_cases (Option.some.inj h) with hrefused | ⟨hok, hr⟩
    · exact .inl hrefused
    · exact .inr (.inr ⟨operator, staked, hok, hr⟩)
  unfold resume at h
  split at h
  · next hstage =>
    refine ⟨by simp [hstage], ?_⟩
    dsimp only at h
    split at h
    · obtain ⟨rfl, rfl⟩ := Prod.mk.inj (Option.some.inj h)
      exact .inl ⟨_, rfl, rfl⟩
    split at h
    · obtain ⟨rfl, rfl⟩ := Prod.mk.inj (Option.some.inj h)
      exact .inr (.inl ⟨_, rfl, rfl⟩)
    · exact hfinish h
  · next hstage => exact ⟨by simp [hstage], hfinish h⟩
  · next hstage =>
    refine ⟨by simp [hstage], ?_⟩
    split at h
    · obtain ⟨rfl, rfl⟩ := Prod.mk.inj (Option.some.inj h)
      exact .inl ⟨_, rfl, rfl⟩
    · exact hfinish h
  · cases h

lemma addNonce_live : (r.addNonce clock source c).live = r.live := by
  cases source <;> rfl

end Registry

end ShadeTree.Bootnode
