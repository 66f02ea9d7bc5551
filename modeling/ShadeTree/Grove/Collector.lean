import ShadeTree.Grove.Activity

/-!
# The collector (`collectOnchainActivity` and what it calls in `lib/grove-onchain.mjs`)

The collector reads one delayed block, the code and the counters of both sets and the transactions of the signed
settlements, each from every approved RPC, and goes on only when all RPCs say the same.  What an RPC answers about the
chain is a function of what it is asked; `none` is a call that throws.  The Ethereum library is a parameter, and so is
whether a text is an `https` URL.  Records have the keys and the types of one.  Addresses and hashes are ASCII, so
`toLowerCase` is `toLower`.

Of queries that run at the same time the first of the list that fails gives the error.
-/

namespace ShadeTree.Grove.Collector

open ShadeTree.Lib

/-- The `code` of an error; `invalidTime` is the `RangeError` of `toISOString`, which has none. -/
inductive CollectFail where
  | targetMissing | targetRetired | targetNotLive | targetNetwork | targetChainId | targetProtocolVersion
  | targetFinality | targetContracts | targetMigration | targetPayment | rpcSet | rpcChainId | rpcWrongChain
  | rpcFinality | rpcDisagreement | finalizedBlock | finalizedBlockBoundary | finalizedBlockBeforeDeploy | rpcCode
  | runtimeCodeMissing | runtimeCodeMismatch | rpcCounter | counterRange | counterDecode | counterEventDisagreement
  | registrarSchema | registrarSignature | settlementTarget | rpcSettlementTransaction | rpcSettlementReceipt
  | rpcInsertReceipt | settlementNotFinalized | settlementCalldata | settlementInsertMissing | privacyPolicy
  | event (why : Fail) | invalidTime
  deriving DecidableEq, Repr

def CollectFail.code : CollectFail → Option String
  | .targetMissing => "target-missing"
  | .targetRetired => "target-retired"
  | .targetNotLive => "target-not-live"
  | .targetNetwork => "target-network"
  | .targetChainId => "target-chain-id"
  | .targetProtocolVersion => "target-protocol-version"
  | .targetFinality => "target-finality"
  | .targetContracts => "target-contracts"
  | .targetMigration => "target-migration"
  | .targetPayment => "target-payment"
  | .rpcSet => "rpc-set"
  | .rpcChainId => "rpc-chain-id"
  | .rpcWrongChain => "rpc-wrong-chain"
  | .rpcFinality => "rpc-finality"
  | .rpcDisagreement => "rpc-disagreement"
  | .finalizedBlock => "finalized-block"
  | .finalizedBlockBoundary => "finalized-block-boundary"
  | .finalizedBlockBeforeDeploy => "finalized-block-before-deploy"
  | .rpcCode => "rpc-code"
  | .runtimeCodeMissing => "runtime-code-missing"
  | .runtimeCodeMismatch => "runtime-code-mismatch"
  | .rpcCounter => "rpc-counter"
  | .counterRange => "counter-range"
  | .counterDecode => "counter-decode"
  | .counterEventDisagreement => "counter-event-disagreement"
  | .registrarSchema => "registrar-schema"
  | .registrarSignature => "registrar-signature"
  | .settlementTarget => "settlement-target"
  | .rpcSettlementTransaction => "rpc-settlement-transaction"
  | .rpcSettlementReceipt => "rpc-settlement-receipt"
  | .rpcInsertReceipt => "rpc-insert-receipt"
  | .settlementNotFinalized => "settlement-not-finalized"
  | .settlementCalldata => "settlement-calldata"
  | .settlementInsertMissing => "settlement-insert-missing"
  | .privacyPolicy => "privacy-policy"
  | .event why => why.code
  | .invalidTime => none

/-! ### Records -/

/-- The text of a time: the canonical one of a time in milliseconds, or any other. -/
inductive Time where
  | iso (ms : ℤ)
  | other (text : String)
  deriving DecidableEq

def Time.isIso : Time → Bool
  | .iso _ => true
  | .other _ => false

structure Role where
  address : String
  deployBlock : ℤ
  runtimeCodeHash : String

structure Asset where
  address : String
  decimals : ℤ
  symbol : String

/-- `record.activity.payment`. -/
structure Payment where
  attributionRule : String
  asset : Asset
  payee : String
  registrarKeyId : String
  registrarPublicKey : String

/-- A record of a deployment; a missing `retiresBeforeBlock` is `null`. -/
structure Target where
  status : String
  network : String
  chainId : ℤ
  protocolVersion : ℤ
  confirmations : ℤ
  approvedRpcUrls : List String
  stakedReputationSet : Role
  paidAccessSet : Role
  startsAtBlock : ℤ
  retiresBeforeBlock : Option ℤ
  payment : Payment

/-- A fact that the registrar signed. -/
structure Fact where
  asset : String
  atomicValue : String
  commitment : String
  insertTx : String
  payee : String
  rail : String
  settlementTx : String

/-- `settlementSigningPayload(aggregate)`. -/
structure RegistrarPayload where
  schema : String
  chainId : ℤ
  generatedAt : Time
  registrarKeyId : String
  settlements : List Fact

structure RegistrarAggregate where
  payload : RegistrarPayload
  algorithm : String
  keyId : String
  signature : String

/-! ### The chain and the library -/

structure Block where
  number : ℤ
  hash : String
  time : Time
  deriving DecidableEq

structure Transaction where
  toAddress : Option String
  data : String
  value : ℕ
  deriving DecidableEq

structure Log where
  address : Option String
  topics : List String
  data : String
  deriving DecidableEq

structure Receipt where
  status : ℤ
  blockNumber : ℤ
  logs : List Log
  deriving DecidableEq

/-- One RPC.  It reads a hash as bytes, so the case of its letters is the same to it. -/
structure Rpc where
  getChainId : Option ℤ
  getDelayedFinalizedBlock : (before confirmations : ℤ) → Option (Option Block)
  getCode : (address : String) → (blockNumber : ℤ) → Option String
  call : (address data : String) → (blockNumber : ℤ) → Option String
  getTransaction : String → Option (Option Transaction)
  getTransactionReceipt : String → Option (Option Receipt)
  getTransaction_toLower : ∀ hash, getTransaction hash.toLower = getTransaction hash
  getTransactionReceipt_toLower : ∀ hash, getTransactionReceipt hash.toLower = getTransactionReceipt hash

/-- What `TOKEN_ABI.parseTransaction` returns. -/
structure Calldata where
  name : String
  toAddress : String
  value : ℕ

/-- What `PAID_ABI.parseLog` returns. -/
structure ParsedLog where
  name : String
  commitment : ℕ

/-- What is used of `ethers`, and of `URL`. -/
structure Ethers where
  /-- `new URL(url).protocol === "https:"`. -/
  isHttps : String → Bool
  /-- `normalizedAddress(value)`. -/
  normalizedAddress : String → Option String
  keccak256 : String → String
  verifyMessage : RegistrarPayload → (signature : String) → Option String
  encodeFunctionData : (method : String) → String
  decodeFunctionResult : (method data : String) → Option ℕ
  parseTransaction : (data : String) → (value : ℕ) → Option Calldata
  parseLog : Log → Option ParsedLog
  /-- A checksum address is one. -/
  normalizedAddress_idem : ∀ value address, normalizedAddress value = some address →
    normalizedAddress address = some address

def GROVE_SETTLEMENT_SCHEMA : String := "shade-tree-registrar-settlements-v1"

def ISO_DELAY_MS : ℤ := 6 * 60 * 60000

def isSafeInteger (n : ℤ) : Bool := -MAX_SAFE_INTEGER ≤ n && n ≤ MAX_SAFE_INTEGER

/-- `new Date(ms).toISOString()`, or `none` when it throws. -/
def toISOString (ms : ℤ) : Option ℤ := if -8640000000000000 ≤ ms ∧ ms ≤ 8640000000000000 then some ms else none

def isHex (c : Char) : Bool := c.isDigit || ('a' ≤ c && c ≤ 'f') || ('A' ≤ c && c ≤ 'F')

/-- The hex digits after `0x`. -/
def hexDigits (value : String) : Option (List Char) :=
  match value.toList with
  | '0' :: 'x' :: hex => if hex.all isHex then some hex else none
  | _ => none

/-- `/^[A-Za-z0-9._-]{1,16}$/`. -/
def symbolShape (value : String) : Bool :=
  1 ≤ value.length && value.length ≤ 16 && value.toList.all fun c => c.isAlphanum || c == '.' || c == '_' || c == '-'

/-- `/^[a-z0-9][a-z0-9._-]{0,63}$/`. -/
def keyIdShape (value : String) : Bool :=
  let lowerAlnum (c : Char) := c.isDigit || ('a' ≤ c && c ≤ 'z')
  value.length ≤ 64 && value.toList.head?.any lowerAlnum &&
    value.toList.all fun c => lowerAlnum c || c == '.' || c == '_' || c == '-'

/-- `if (c) fail(code)`. -/
def failIf (c : Bool) (code : CollectFail) : Except CollectFail Unit := if c then .error code else .ok ()

section Model

variable (E : Ethers)

/-! ### The target -/

def validRole (role : Role) : Bool :=
  (E.normalizedAddress role.address).isSome && isSafeInteger role.deployBlock && 0 ≤ role.deployBlock &&
    (lowerHash role.runtimeCodeHash).isSome

def validMigration (target : Target) : Bool :=
  isSafeInteger target.startsAtBlock && 0 ≤ target.startsAtBlock &&
    target.retiresBeforeBlock.all fun retires => isSafeInteger retires && target.startsAtBlock < retires

def validPayment (payment : Payment) : Bool :=
  payment.attributionRule == "signed-registrar-chain-verified-v1" &&
    (E.normalizedAddress payment.asset.address).isSome && 0 ≤ payment.asset.decimals && payment.asset.decimals ≤ 255 &&
    symbolShape payment.asset.symbol && (E.normalizedAddress payment.payee).isSome && keyIdShape payment.registrarKeyId &&
    (hexDigits payment.registrarPublicKey).any fun hex => hex.length == 40

/-- `validateLiveOnchainTarget(record)`; `none` is a record that is no object. -/
def validateLiveOnchainTarget (record : Option Target) : Except CollectFail Target := do
  let some record := record | .error .targetMissing
  failIf (record.status = "retired") .targetRetired
  failIf (record.status ≠ "live") .targetNotLive
  failIf (record.network ≠ "sepolia") .targetNetwork
  failIf (!isSafeInteger record.chainId || record.chainId ≤ 0 || record.chainId != 11155111) .targetChainId
  failIf (record.protocolVersion ≠ 4) .targetProtocolVersion
  failIf (!isSafeInteger record.confirmations || record.confirmations < 1 || record.approvedRpcUrls.isEmpty ||
    record.approvedRpcUrls.any fun url => !E.isHttps url) .targetFinality
  failIf (!validRole E record.stakedReputationSet || !validRole E record.paidAccessSet) .targetContracts
  failIf (!validMigration record) .targetMigration
  failIf (!validPayment E record.payment) .targetPayment
  .ok record

/-! ### The registrar -/

def validSettlementFact (value : Fact) : Bool :=
  (E.normalizedAddress value.asset).isSome && ((decimalUint256 value.atomicValue).any fun n => 0 < n) &&
    (decimalUint256 value.commitment).isSome && (lowerHash value.settlementTx).isSome &&
    (lowerHash value.insertTx).isSome && (E.normalizedAddress value.payee).isSome && value.rail ∈ ["x402", "mpp"]

def validateRegistrarAggregate (aggregate : RegistrarAggregate) (target : Target) : Except CollectFail RegistrarAggregate :=
  let payment := target.payment
  let p := aggregate.payload
  if p.schema == GROVE_SETTLEMENT_SCHEMA && p.chainId == target.chainId && p.generatedAt.isIso &&
      p.registrarKeyId == payment.registrarKeyId && p.settlements.length ≤ 100000 &&
      p.settlements.all (validSettlementFact E) && aggregate.algorithm == "EIP-191" &&
      aggregate.keyId == payment.registrarKeyId then
    match E.verifyMessage p aggregate.signature with
    | none => .error .registrarSignature
    | some recovered =>
      if recovered.toLower = payment.registrarPublicKey.toLower then .ok aggregate else .error .registrarSignature
  else .error .registrarSchema

/-! ### What all RPCs say -/

/-- `agreed(rpcs, operation, code)`. -/
def agreed {α : Type} [DecidableEq α] (rpcs : List Rpc) (operation : Rpc → Option α) (code : CollectFail) :
    Except CollectFail α :=
  match rpcs.mapM operation with
  | none | some [] => .error code
  | some (value :: values) => if values.all (· = value) then .ok value else .error .rpcDisagreement

def verifyCode (rpcs : List Rpc) (role : Role) (blockNumber : ℤ) : Except CollectFail Unit := do
  let code ← agreed rpcs (fun rpc => rpc.getCode role.address blockNumber) .rpcCode
  failIf (!((hexDigits code).any fun hex => hex.length % 2 == 0 && !hex.isEmpty)) .runtimeCodeMissing
  failIf ((E.keccak256 code).toLower ≠ role.runtimeCodeHash.toLower) .runtimeCodeMismatch

def readCounter (rpcs : List Rpc) (role : Role) (method : String) (blockNumber : ℤ) : Except CollectFail ℕ := do
  let result ← agreed rpcs (fun rpc => rpc.call role.address (E.encodeFunctionData method) blockNumber) .rpcCounter
  match E.decodeFunctionResult method result with
  | none => .error .counterDecode
  | some count => if safeCount count then .ok count else .error .counterRange

/-- The logs of a receipt tell the insertion. -/
def hasInserted (target : Target) (fact : Fact) (receipt : Receipt) : Bool :=
  receipt.logs.any fun log => log.address.any (fun address => address.toLower = target.paidAccessSet.address.toLower) &&
    (E.parseLog log).any fun parsed => parsed.name == "Inserted" && toString parsed.commitment == fact.commitment

def verifySettlementFact (fact : Fact) (target : Target) (rpcs : List Rpc) (finalizedBlock : ℤ) : Except CollectFail ℕ := do
  let payment := target.payment
  failIf (fact.asset.toLower ≠ payment.asset.address.toLower ∨ fact.payee.toLower ≠ payment.payee.toLower)
    .settlementTarget
  let tx ← agreed rpcs (fun rpc => rpc.getTransaction fact.settlementTx) .rpcSettlementTransaction
  let settlementReceipt ← agreed rpcs (fun rpc => rpc.getTransactionReceipt fact.settlementTx) .rpcSettlementReceipt
  let insertReceipt ← agreed rpcs (fun rpc => rpc.getTransactionReceipt fact.insertTx) .rpcInsertReceipt
  match tx, settlementReceipt, insertReceipt with
  | some tx, some settlementReceipt, some insertReceipt =>
    failIf (settlementReceipt.status ≠ 1 ∨ insertReceipt.status ≠ 1 ∨ finalizedBlock < settlementReceipt.blockNumber ∨
      finalizedBlock < insertReceipt.blockNumber ∨ tx.toAddress.map String.toLower ≠ some payment.asset.address.toLower)
      .settlementNotFinalized
    match E.parseTransaction tx.data tx.value with
    | none => .error .settlementCalldata
    | some decoded =>
      failIf (decoded.name ≠ "transferWithAuthorization" ∨ decoded.toAddress.toLower ≠ payment.payee.toLower ∨
        toString decoded.value ≠ fact.atomicValue) .settlementCalldata
      failIf (!hasInserted E target fact insertReceipt) .settlementInsertMissing
      .ok ((decimalUint256 fact.atomicValue).getD 0)
  | _, _, _ => .error .settlementNotFinalized

/-- The key under which a fact counts, in its parts. -/
def Fact.key (fact : Fact) : String × String := (fact.settlementTx.toLower, fact.insertTx.toLower)

/-- The loop over the settlements: `atomicValue` and `completedAccesses` at its end. -/
def settleAll (verify : Fact → Except CollectFail ℕ) :
    (dedupe : List (String × String)) → (atomicValue completedAccesses : ℕ) → List Fact → Except CollectFail (ℕ × ℕ)
  | _, atomicValue, completedAccesses, [] => .ok (atomicValue, completedAccesses)
  | dedupe, atomicValue, completedAccesses, fact :: facts =>
    if fact.key ∈ dedupe then settleAll verify dedupe atomicValue completedAccesses facts
    else do
      let value ← verify fact
      settleAll verify (fact.key :: dedupe) (atomicValue + value) (completedAccesses + 1) facts

/-! ### The observation -/

structure Source where
  chainId : ℤ
  finalizedBlock : String
  finalizedBlockHash : String
  finalizedBlockTime : ℤ
  finalityConfirmations : ℤ

structure Settlements where
  completedAccesses : ℕ
  atomicValue : String

structure ObservedAsset where
  chainId : ℤ
  address : String
  decimals : ℤ
  symbol : String
  deriving DecidableEq

structure Observation where
  generatedAt : ℤ
  source : Source
  activeStakedCommitments : ℕ
  activePaidCommitments : ℕ
  settlements : Option Settlements
  stakedSlashes : ℕ
  paidSlashes : ℕ
  asset : ObservedAsset

/-- The delayed block that all RPCs name, and that lies within the target. -/
def delayedBlock (target : Target) (rpcs : List Rpc) (now : ℤ) : Except CollectFail (ℤ × String × ℤ) := do
  let some cutoff := (toISOString now).bind fun now => toISOString (now - ISO_DELAY_MS) | .error .invalidTime
  let block ← agreed rpcs (fun rpc => rpc.getDelayedFinalizedBlock cutoff target.confirmations) .rpcFinality
  let some block := block | .error .finalizedBlock
  let (some hash, .iso time) := (lowerHash block.hash, block.time) | .error .finalizedBlock
  failIf (!isSafeInteger block.number || cutoff < time) .finalizedBlock
  failIf (block.number < target.startsAtBlock || target.retiresBeforeBlock.any fun retires => retires ≤ block.number)
    .finalizedBlockBoundary
  failIf (block.number < target.stakedReputationSet.deployBlock || block.number < target.paidAccessSet.deployBlock)
    .finalizedBlockBeforeDeploy
  .ok (block.number, hash, time)

/-- The settlements of an aggregate that is there. -/
def collectSettlements (target : Target) (rpcs : List Rpc) (finalizedBlock : ℤ) :
    Option RegistrarAggregate → Except CollectFail (Option Settlements)
  | none => .ok none
  | some aggregate => do
    let aggregate ← validateRegistrarAggregate E aggregate target
    let settled ← settleAll (fun fact => verifySettlementFact E fact target rpcs finalizedBlock) [] 0 0
      aggregate.payload.settlements
    .ok (some ⟨settled.2, toString settled.1⟩)

/-- `collectOnchainActivity({ target, rpcs, events, registrarAggregate, now })`. -/
def collectOnchainActivity (target : Option Target) (rpcs : List Rpc) (events : List ActivityEvent)
    (registrarAggregate : Option RegistrarAggregate) (now : ℤ) : Except CollectFail Observation := do
  let target ← validateLiveOnchainTarget E target
  failIf (rpcs.length ≠ target.approvedRpcUrls.length ∨ rpcs.length < 1) .rpcSet
  let chainId ← agreed rpcs Rpc.getChainId .rpcChainId
  failIf (chainId ≠ target.chainId) .rpcWrongChain
  let (blockNumber, blockHash, blockTime) ← delayedBlock target rpcs now
  verifyCode E rpcs target.stakedReputationSet blockNumber
  verifyCode E rpcs target.paidAccessSet blockNumber
  let activeStakedCommitments ← readCounter E rpcs target.stakedReputationSet "activeCount" blockNumber
  let activePaidCommitments ← readCounter E rpcs target.paidAccessSet "liveCount" blockNumber
  let state ← (reduceActivityEvents (fun address => (E.normalizedAddress address).isSome) chainId none events).mapError .event
  let replayed := activityCounts state
  failIf (replayed.activeStakedCommitments ≠ activeStakedCommitments ∨
    replayed.activePaidCommitments ≠ activePaidCommitments) .counterEventDisagreement
  let settlements ← collectSettlements E target rpcs blockNumber registrarAggregate
  let some generatedAt := toISOString now | .error .invalidTime
  .ok {
    generatedAt := generatedAt
    source := ⟨chainId, toString blockNumber, blockHash, blockTime, target.confirmations⟩
    activeStakedCommitments := activeStakedCommitments
    activePaidCommitments := activePaidCommitments
    settlements := settlements
    stakedSlashes := replayed.stakedSlashes
    paidSlashes := replayed.paidSlashes
    asset := ⟨chainId, (E.normalizedAddress target.payment.asset.address).getD "", target.payment.asset.decimals,
      target.payment.asset.symbol⟩ }

end Model

/-! ### What a successful step has checked -/

lemma bind_ok {α β : Type} {x : Except CollectFail α} {f : α → Except CollectFail β} {r : β} :
    (x >>= f) = .ok r ↔ ∃ a, x = .ok a ∧ f a = .ok r := by
  cases x with
  | error why => simp [bind, Except.bind]
  | ok a => simp [bind, Except.bind]

lemma failIf_ok {c : Bool} {code : CollectFail} {u : Unit} : failIf c code = .ok u ↔ c = false := by
  cases c <;> simp [failIf]

/-- A check and what comes after it. -/
lemma failIf_bind_ok {α : Type} {c : Bool} {code : CollectFail} {f : Unit → Except CollectFail α} {r : α} :
    (failIf c code >>= f) = .ok r ↔ c = false ∧ f () = .ok r := by
  rw [bind_ok]
  simp only [failIf_ok, exists_and_left]
  exact and_congr_right fun _ => ⟨fun ⟨_, h⟩ => h, fun h => ⟨(), h⟩⟩

lemma map_of_mapM {α β : Type} {f : α → Option β} {l : List α} {r : List β} (h : l.mapM f = some r) :
    l.map f = r.map some := by
  induction l generalizing r with
  | nil =>
    rw [List.mapM_nil] at h
    cases h
    rfl
  | cons a l ih =>
    simp only [List.mapM_cons, Option.bind_eq_bind, Option.bind_eq_some_iff, Option.pure_def, Option.some.injEq] at h
    obtain ⟨b, hb, bs, hbs, rfl⟩ := h
    rw [List.map_cons, List.map_cons, hb, ih hbs]

/-- What is agreed on is what each RPC answers. -/
lemma agreed_ok {α : Type} [DecidableEq α] {rpcs : List Rpc} {operation : Rpc → Option α} {code : CollectFail} {v : α}
    (h : agreed rpcs operation code = .ok v) : rpcs ≠ [] ∧ ∀ rpc ∈ rpcs, operation rpc = some v := by
  unfold agreed at h
  split at h
  · cases h
  · cases h
  · next value values hanswers =>
    split at h
    · next hsame =>
      obtain rfl := Except.ok.inj h
      have hmap : rpcs.map operation = (value :: values).map some := map_of_mapM hanswers
      have hall : ∀ w ∈ value :: values, w = value :=
        List.forall_mem_cons.mpr ⟨rfl, fun w hw => of_decide_eq_true (List.all_eq_true.mp hsame w hw)⟩
      refine ⟨?_, fun rpc hrpc => ?_⟩
      · rintro rfl
        cases hmap
      · obtain ⟨w, hw, hop⟩ := List.mem_map.mp (hmap ▸ List.mem_map_of_mem hrpc : operation rpc ∈ (value :: values).map some)
        rw [← hop, hall w hw]
    · cases h

section Ok

lemma agreed_single {α : Type} [DecidableEq α] {rpc : Rpc} {operation : Rpc → Option α} {code : CollectFail} {v : α}
    (h : operation rpc = some v) : agreed [rpc] operation code = .ok v := by
  simp [agreed, h]

lemma mapError_ok {α : Type} {x : Except Fail α} {a : α} (h : x.mapError CollectFail.event = .ok a) : x = .ok a := by
  cases x with
  | error why => cases h
  | ok b => exact congrArg _ (Except.ok.inj h)

variable {E : Ethers}

/-- A target that is accepted. -/
structure Live (E : Ethers) (target : Target) : Prop where
  chainId : target.chainId = 11155111
  confirmations : 1 ≤ target.confirmations
  startsAtBlock : 0 ≤ target.startsAtBlock
  payment : validPayment E target.payment = true

lemma validateLiveOnchainTarget_ok {record : Option Target} {target : Target}
    (h : validateLiveOnchainTarget E record = .ok target) : record = some target ∧ Live E target := by
  cases record with
  | none => cases h
  | some record =>
    simp only [validateLiveOnchainTarget, failIf_bind_ok] at h
    obtain ⟨-, -, -, hchain, -, hfinality, -, hmigration, hpayment, hrecord⟩ := h
    obtain rfl := Except.ok.inj hrecord
    simp only [Bool.or_eq_false_iff, bne_eq_false_iff_eq, decide_eq_false_iff_not, not_lt] at hchain hfinality
    simp only [Bool.not_eq_false', validMigration, Bool.and_eq_true, decide_eq_true_eq] at hmigration
    exact ⟨rfl, hchain.2, hfinality.1.1.2, hmigration.1.2, by simpa using hpayment⟩

lemma validateRegistrarAggregate_ok {aggregate aggregate' : RegistrarAggregate} {target : Target}
    (h : validateRegistrarAggregate E aggregate target = .ok aggregate') :
    aggregate' = aggregate ∧ aggregate.payload.settlements.length ≤ 100000 ∧
      ∀ fact ∈ aggregate.payload.settlements, validSettlementFact E fact = true := by
  unfold validateRegistrarAggregate at h
  dsimp only at h
  split at h
  · next hform =>
    simp only [Bool.and_eq_true, decide_eq_true_eq, List.all_eq_true] at hform
    split at h
    · cases h
    · split at h
      · exact ⟨(Except.ok.inj h).symm, hform.1.1.1.2, hform.1.1.2⟩
      · cases h
  · cases h

lemma validateRegistrarAggregate_of {aggregate : RegistrarAggregate} {target : Target} {recovered : String}
    (hform : (aggregate.payload.schema == GROVE_SETTLEMENT_SCHEMA && aggregate.payload.chainId == target.chainId &&
      aggregate.payload.generatedAt.isIso && aggregate.payload.registrarKeyId == target.payment.registrarKeyId &&
        aggregate.payload.settlements.length ≤ 100000 && aggregate.payload.settlements.all (validSettlementFact E) &&
          aggregate.algorithm == "EIP-191" && aggregate.keyId == target.payment.registrarKeyId) = true)
    (hsigner : E.verifyMessage aggregate.payload aggregate.signature = some recovered)
    (hkey : recovered.toLower = target.payment.registrarPublicKey.toLower) :
    validateRegistrarAggregate E aggregate target = .ok aggregate := by
  unfold validateRegistrarAggregate
  dsimp only
  rw [if_pos hform, hsigner]
  exact if_pos hkey

/-- A collection that succeeds at a block, with a state that the events replay to. -/
structure Collected (E : Ethers) (target : Target) (rpcs : List Rpc) (events : List ActivityEvent)
    (aggregate : Option RegistrarAggregate) (now : ℤ) (obs : Observation) (number : ℤ) (state : Activity) : Prop where
  live : Live E target
  block : delayedBlock target rpcs now = .ok (number, obs.source.finalizedBlockHash, obs.source.finalizedBlockTime)
  staked : readCounter E rpcs target.stakedReputationSet "activeCount" number = .ok obs.activeStakedCommitments
  paid : readCounter E rpcs target.paidAccessSet "liveCount" number = .ok obs.activePaidCommitments
  events : reduceActivityEvents (fun address => (E.normalizedAddress address).isSome) 11155111 none events = .ok state
  settlements : collectSettlements E target rpcs number aggregate = .ok obs.settlements
  generatedAt : toISOString now = some obs.generatedAt
  source : obs.source = ⟨11155111, toString number, obs.source.finalizedBlockHash, obs.source.finalizedBlockTime,
    target.confirmations⟩
  stakedSlashes : obs.stakedSlashes = state.stakedSlashes
  paidSlashes : obs.paidSlashes = state.paidSlashes
  asset : obs.asset = ⟨11155111, (E.normalizedAddress target.payment.asset.address).getD "",
    target.payment.asset.decimals, target.payment.asset.symbol⟩

lemma collectOnchainActivity_ok {target : Option Target} {rpcs : List Rpc} {events : List ActivityEvent}
    {aggregate : Option RegistrarAggregate} {now : ℤ} {obs : Observation}
    (h : collectOnchainActivity E target rpcs events aggregate now = .ok obs) :
    ∃ record number state, target = some record ∧ Collected E record rpcs events aggregate now obs number state := by
  unfold collectOnchainActivity at h
  obtain ⟨record, hrecord, h⟩ := bind_ok.mp h
  obtain ⟨htarget, hlive⟩ := validateLiveOnchainTarget_ok hrecord
  obtain ⟨-, h⟩ := failIf_bind_ok.mp h
  obtain ⟨chainId, -, h⟩ := bind_ok.mp h
  obtain ⟨hchain, h⟩ := failIf_bind_ok.mp h
  obtain rfl : chainId = 11155111 := by
    rw [← hlive.chainId]
    simpa using hchain
  obtain ⟨⟨number, hash, time⟩, hblock, h⟩ := bind_ok.mp h
  obtain ⟨-, -, h⟩ := bind_ok.mp h
  obtain ⟨-, -, h⟩ := bind_ok.mp h
  obtain ⟨activeStakedCommitments, hstaked, h⟩ := bind_ok.mp h
  obtain ⟨activePaidCommitments, hpaid, h⟩ := bind_ok.mp h
  obtain ⟨state, hstate, h⟩ := bind_ok.mp h
  obtain ⟨-, h⟩ := failIf_bind_ok.mp h
  obtain ⟨settlements, hsettlements, h⟩ := bind_ok.mp h
  split at h
  · next generatedAt hgenerated =>
    obtain rfl := Except.ok.inj h
    exact ⟨record, number, state, htarget, hlive, hblock, hstaked, hpaid, mapError_ok hstate, hsettlements, hgenerated,
      rfl, rfl, rfl, rfl⟩
  · cases h

end Ok

end ShadeTree.Grove.Collector
