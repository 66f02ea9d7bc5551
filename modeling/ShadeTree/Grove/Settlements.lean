import Mathlib
import ShadeTree.Grove.Collector
import ShadeTree.Lib.Sums

/-!
# What the settlements add up to (`verifySettlementFact` and the loop of `collectOnchainActivity` in
# `lib/grove-onchain.mjs`)

A fact names a settlement and an insertion, and of the facts that name one pair the first counts.  A settlement stands
for money that was moved once, whatever it is paired with.
-/

namespace ShadeTree.Grove.Collector

open ShadeTree.Lib

/-! ### Money that was moved -/

/-- The settlement transactions that facts name. -/
def settlementTxs (facts : List Fact) : Finset String := (facts.map fun fact => fact.settlementTx.toLower).toFinset

/-- The insertions that facts name. -/
def insertions (facts : List Fact) : Finset (String × String) :=
  (facts.map fun fact => (fact.insertTx.toLower, fact.commitment)).toFinset

/-- What a transaction transfers to the payee, as an RPC tells it. -/
def Rpc.transferred (E : Ethers) (target : Target) (rpc : Rpc) (hash : String) : ℕ :=
  match (rpc.getTransaction hash).join, (rpc.getTransactionReceipt hash).join with
  | some tx, some receipt =>
    match E.parseTransaction tx.data tx.value with
    | none => 0
    | some decoded =>
      if receipt.status = 1 ∧ tx.toAddress.map String.toLower = some target.payment.asset.address.toLower ∧
          decoded.name = "transferWithAuthorization" ∧ decoded.toAddress.toLower = target.payment.payee.toLower then
        decoded.value
      else 0
  | _, _ => 0

/-- What a transaction transfers to the payee, where all RPCs tell the same. -/
def transferred (E : Ethers) (target : Target) (rpcs : List Rpc) (hash : String) : ℕ :=
  rpcs.head?.elim 0 fun rpc => rpc.transferred E target hash

/-- The facts that count, when those of some pairs have been counted. -/
def kept : (dedupe : List (String × String)) → List Fact → List Fact
  | _, [] => []
  | dedupe, fact :: facts => if fact.key ∈ dedupe then kept dedupe facts else fact :: kept (fact.key :: dedupe) facts

lemma kept_cons (dedupe : List (String × String)) (fact : Fact) (facts : List Fact) :
    kept dedupe (fact :: facts) =
      if fact.key ∈ dedupe then kept dedupe facts else fact :: kept (fact.key :: dedupe) facts := rfl

/-- Every settlement and every insertion counts once. -/
structure CountsOnce (E : Ethers) (target : Target) (rpcs : List Rpc) (facts : List Fact) (settlements : Settlements) :
    Prop where
  value : settlements.atomicValue = toString (∑ hash ∈ settlementTxs facts, transferred E target rpcs hash)
  settlements_le : settlements.completedAccesses ≤ (settlementTxs facts).card
  insertions_le : settlements.completedAccesses ≤ (insertions (kept [] facts)).card

/-- No settlement is in two pairs, and no insertion of a commitment is in two pairs. -/
def PairedOnce (facts : List Fact) : Prop :=
  (kept [] facts).Pairwise fun fact fact' => fact.settlementTx.toLower ≠ fact'.settlementTx.toLower ∧
    (fact.insertTx.toLower, fact.commitment) ≠ (fact'.insertTx.toLower, fact'.commitment)

/-! ### The loop -/

section Loop

variable {verify : Fact → Except CollectFail ℕ} {value : Fact → ℕ} {dedupe : List (String × String)} {facts : List Fact}

/-- The loop adds up the facts that count, each of which it has verified. -/
lemma settleAll_ok {a c a' c' : ℕ} (hvalue : ∀ fact ∈ facts, ∀ v, verify fact = .ok v → v = value fact)
    (h : settleAll verify dedupe a c facts = .ok (a', c')) :
    a' = a + ((kept dedupe facts).map value).sum ∧ c' = c + (kept dedupe facts).length ∧
      ∀ fact ∈ kept dedupe facts, verify fact = .ok (value fact) := by
  induction facts generalizing dedupe a c with
  | nil =>
    obtain ⟨rfl, rfl⟩ := Prod.mk.inj (Except.ok.inj h)
    exact ⟨rfl, rfl, nofun⟩
  | cons fact facts ih =>
    have hrest : ∀ other ∈ facts, ∀ v, verify other = .ok v → v = value other :=
      fun other hother => hvalue other (List.mem_cons_of_mem _ hother)
    unfold settleAll at h
    rw [kept_cons]
    split at h
    · next hseen =>
      rw [if_pos hseen]
      exact ih hrest h
    · next hnew =>
      rw [if_neg hnew]
      cases hverify : verify fact with
      | error why =>
        rw [hverify] at h
        cases h
      | ok v =>
        rw [hverify] at h
        obtain rfl := hvalue fact List.mem_cons_self v hverify
        obtain ⟨ha, hc, hkept⟩ := ih hrest h
        refine ⟨?_, ?_, List.forall_mem_cons.mpr ⟨hverify, hkept⟩⟩
        · rw [ha, List.map_cons, List.sum_cons, add_assoc]
        · rw [hc, List.length_cons, add_assoc, add_comm 1]

lemma settleAll_single {fact : Fact} {v : ℕ} (h : verify fact = .ok v) :
    settleAll verify [] 0 0 [fact] = .ok (v, 1) := by
  simp [settleAll, h, bind, Except.bind]

lemma settleAll_pair {fact fact' : Fact} {v v' : ℕ} (hkey : fact'.key ≠ fact.key)
    (h : verify fact = .ok v) (h' : verify fact' = .ok v') :
    settleAll verify [] 0 0 [fact, fact'] = .ok (v + v', 2) := by
  simp [settleAll, hkey, h, h', bind, Except.bind]

lemma kept_sublist : (kept dedupe facts).Sublist facts := by
  induction facts generalizing dedupe with
  | nil => exact .slnil
  | cons fact facts ih =>
    rw [kept_cons]
    split
    · exact ih.cons fact
    · exact ih.cons_cons fact

/-- Every fact is counted under its pair, or was. -/
lemma exists_kept {fact : Fact} (h : fact ∈ facts) :
    fact.key ∈ dedupe ∨ ∃ fact' ∈ kept dedupe facts, fact'.key = fact.key := by
  induction facts generalizing dedupe with
  | nil => cases h
  | cons first facts ih =>
    rw [kept_cons]
    split
    · next hseen =>
      rcases List.mem_cons.mp h with rfl | hmem
      · exact .inl hseen
      · exact ih hmem
    · rcases List.mem_cons.mp h with rfl | hmem
      · exact .inr ⟨_, List.mem_cons_self, rfl⟩
      · rcases ih hmem with hkey | ⟨fact', hfact', hkey⟩
        · rcases List.mem_cons.mp hkey with heq | hdedupe
          · exact .inr ⟨first, List.mem_cons_self, heq.symm⟩
          · exact .inl hdedupe
        · exact .inr ⟨fact', List.mem_cons_of_mem _ hfact', hkey⟩

/-- The facts that count name all settlements. -/
lemma settlementTxs_kept : settlementTxs (kept [] facts) = settlementTxs facts := by
  ext hash
  simp only [settlementTxs, List.mem_toFinset, List.mem_map]
  constructor
  · rintro ⟨fact, hfact, rfl⟩
    exact ⟨fact, kept_sublist.subset hfact, rfl⟩
  · rintro ⟨fact, hfact, rfl⟩
    rcases @exists_kept [] _ _ hfact with hnil | ⟨fact', hfact', hkey⟩
    · cases hnil
    · exact ⟨fact', hfact', congrArg Prod.fst hkey⟩

end Loop

/-! ### One fact -/

section Verify

variable {E : Ethers} {target : Target} {rpcs : List Rpc} {finalizedBlock : ℤ}

/-- A decimal text is read as the number that it is the text of. -/
lemma decimalUint256_toString_eq_some {n m : ℕ} : decimalUint256 (toString n) = some m ↔ m = n ∧ n < 2 ^ 256 := by
  constructor
  · intro h
    have hvalue : Nat.ofDigitChars 10 (toString n).toList 0 = n := by
      rw [Nat.toString_eq_repr, Nat.toList_repr]
      exact Nat.ofDigitChars_ten_toDigits
    unfold decimalUint256 at h
    dsimp only at h
    rw [hvalue] at h
    split at h
    · split at h
      · next hn => exact ⟨(Option.some.inj h).symm, hn⟩
      · cases h
    · cases h
  · rintro ⟨rfl, hn⟩
    exact decimalUint256_toString hn

/-- The value of a fact that is verified is the one its settlement transfers. -/
lemma verifySettlementFact_ok {fact : Fact} {v : ℕ} (hfact : validSettlementFact E fact = true)
    (h : verifySettlementFact E fact target rpcs finalizedBlock = .ok v) :
    v = transferred E target rpcs fact.settlementTx ∧ 0 < v := by
  obtain ⟨n, hn, hpos⟩ : ∃ n, decimalUint256 fact.atomicValue = some n ∧ 0 < n := by
    simp only [validSettlementFact, Bool.and_eq_true, Option.any_eq_true, decide_eq_true_eq] at hfact
    exact hfact.1.1.1.1.1.2
  unfold verifySettlementFact at h
  obtain ⟨-, h⟩ := failIf_bind_ok.mp h
  obtain ⟨tx, htx, h⟩ := bind_ok.mp h
  obtain ⟨receipt, hreceipt, h⟩ := bind_ok.mp h
  obtain ⟨insertReceipt, -, h⟩ := bind_ok.mp h
  split at h
  · next tx settlementReceipt insertReceipt =>
    obtain ⟨hfinal, h⟩ := failIf_bind_ok.mp h
    split at h
    · cases h
    · next decoded hdecoded =>
      obtain ⟨hcalldata, h⟩ := failIf_bind_ok.mp h
      obtain ⟨-, h⟩ := failIf_bind_ok.mp h
      simp only [decide_eq_false_iff_not, not_or, not_not] at hfinal hcalldata
      obtain ⟨hname, hto, hvalue⟩ := hcalldata
      rw [← hvalue] at hn h
      obtain rfl := (decimalUint256_toString_eq_some.mp hn).1
      obtain rfl : decoded.value = v := by
        rw [hn] at h
        exact Except.ok.inj h
      obtain ⟨hne, htxs⟩ := agreed_ok htx
      obtain ⟨rpc, rest, rfl⟩ := List.exists_cons_of_ne_nil hne
      have hrpc : rpc ∈ rpc :: rest := List.mem_cons_self
      refine ⟨?_, hpos⟩
      simp only [transferred, List.head?_cons, Option.elim_some, Rpc.transferred, htxs rpc hrpc,
        (agreed_ok hreceipt).2 rpc hrpc, Option.join_some, hdecoded]
      rw [if_pos ⟨hfinal.1, hfinal.2.2.2.2, hname, hto⟩]
  · cases h

lemma verifySettlementFact_of {fact : Fact} {tx : Transaction} {settlementReceipt insertReceipt : Receipt} {decoded : Calldata}
    (htarget : fact.asset.toLower = target.payment.asset.address.toLower ∧
      fact.payee.toLower = target.payment.payee.toLower)
    (htx : agreed rpcs (fun rpc => rpc.getTransaction fact.settlementTx) .rpcSettlementTransaction = .ok (some tx))
    (hsettlement : agreed rpcs (fun rpc => rpc.getTransactionReceipt fact.settlementTx) .rpcSettlementReceipt =
      .ok (some settlementReceipt))
    (hinsert : agreed rpcs (fun rpc => rpc.getTransactionReceipt fact.insertTx) .rpcInsertReceipt =
      .ok (some insertReceipt))
    (hfinal : ¬(settlementReceipt.status ≠ 1 ∨ insertReceipt.status ≠ 1 ∨ finalizedBlock < settlementReceipt.blockNumber ∨
      finalizedBlock < insertReceipt.blockNumber ∨
        tx.toAddress.map String.toLower ≠ some target.payment.asset.address.toLower))
    (hdecoded : E.parseTransaction tx.data tx.value = some decoded)
    (hcalldata : ¬(decoded.name ≠ "transferWithAuthorization" ∨
      decoded.toAddress.toLower ≠ target.payment.payee.toLower ∨ toString decoded.value ≠ fact.atomicValue))
    (hinserted : hasInserted E target fact insertReceipt = true) :
    verifySettlementFact E fact target rpcs finalizedBlock = .ok ((decimalUint256 fact.atomicValue).getD 0) := by
  unfold verifySettlementFact
  refine failIf_bind_ok.mpr ⟨by simp [htarget], ?_⟩
  refine bind_ok.mpr ⟨_, htx, bind_ok.mpr ⟨_, hsettlement, bind_ok.mpr ⟨_, hinsert, ?_⟩⟩⟩
  refine failIf_bind_ok.mpr ⟨decide_eq_false hfinal, ?_⟩
  simp only [hdecoded]
  exact failIf_bind_ok.mpr ⟨decide_eq_false hcalldata, failIf_bind_ok.mpr ⟨by rw [hinserted]; rfl, rfl⟩⟩

/-- The letters of a hash do not matter to what it transfers. -/
lemma transferred_toLower (hash : String) : transferred E target rpcs hash.toLower = transferred E target rpcs hash := by
  unfold transferred
  cases rpcs.head? with
  | none => rfl
  | some rpc =>
    simp only [Option.elim_some, Rpc.transferred, rpc.getTransaction_toLower, rpc.getTransactionReceipt_toLower]

end Verify

/-! ### A collection -/

lemma pairedOnce_iff {facts : List Fact} :
    PairedOnce facts ↔ ((kept [] facts).map fun fact => fact.settlementTx.toLower).Nodup ∧
      ((kept [] facts).map fun fact => (fact.insertTx.toLower, fact.commitment)).Nodup := by
  rw [PairedOnce, List.pairwise_and_iff, List.Nodup, List.Nodup, List.pairwise_map, List.pairwise_map]

/-- **Settlements are added up for each pair of transactions.** A settlement counts as often as it is paired, so the sums
are right when every settlement and every insertion is in one pair, and only then. -/
theorem settlements_count_once {E : Ethers} {target : Target} {rpcs : List Rpc} {events : List ActivityEvent}
    {aggregate : RegistrarAggregate} {now : ℤ} {obs : Observation}
    (h : collectOnchainActivity E (some target) rpcs events (some aggregate) now = .ok obs) :
    ∃ settlements, obs.settlements = some settlements ∧
      (CountsOnce E target rpcs aggregate.payload.settlements settlements ↔
        PairedOnce aggregate.payload.settlements) := by
  obtain ⟨record, number, state, hrecord, hcollected⟩ := collectOnchainActivity_ok h
  obtain rfl := Option.some.inj hrecord
  obtain ⟨aggregate', haggregate, hsettle⟩ := bind_ok.mp hcollected.settlements
  obtain ⟨heq, -, hvalid⟩ := validateRegistrarAggregate_ok haggregate
  subst aggregate'
  obtain ⟨⟨atomicValue, completedAccesses⟩, hloop, hobs⟩ := bind_ok.mp hsettle
  set facts := aggregate.payload.settlements
  set value := transferred E target rpcs with hvalue
  refine ⟨_, (Except.ok.inj hobs).symm, ?_⟩
  have hverified : ∀ fact ∈ facts, ∀ v, verifySettlementFact E fact target rpcs number = .ok v →
      v = value fact.settlementTx.toLower := fun fact hfact v hv => by
    rw [hvalue, transferred_toLower]
    exact (verifySettlementFact_ok (hvalid fact hfact) hv).1
  obtain ⟨ha, hc, hkept⟩ := settleAll_ok hverified hloop
  -- every settlement that counts has moved something
  have hpos : ∀ hash ∈ (kept [] facts).map fun fact => fact.settlementTx.toLower, 0 < value hash := by
    intro hash hhash
    obtain ⟨fact, hfact, rfl⟩ := List.mem_map.mp hhash
    exact (verifySettlementFact_ok (hvalid fact (kept_sublist.subset hfact)) (hkept fact hfact)).2
  have hsum : atomicValue = (((kept [] facts).map fun fact => fact.settlementTx.toLower).map value).sum := by
    rw [ha, zero_add, List.map_map]
    rfl
  have hcount : completedAccesses = (kept [] facts).length := by rw [hc, zero_add]
  rw [pairedOnce_iff]
  constructor
  · intro honce
    have hle := honce.settlements_le
    have hle' := honce.insertions_le
    rw [← settlementTxs_kept] at hle
    simp only [settlementTxs, insertions, hcount] at hle hle'
    refine ⟨length_le_card_toFinset_iff.mp ?_, length_le_card_toFinset_iff.mp ?_⟩
    · rwa [List.length_map]
    · rwa [List.length_map]
  · rintro ⟨hsettlement, hinsertion⟩
    refine ⟨congrArg toString ?_, ?_, ?_⟩
    · rw [hsum, (sum_map_eq_sum_toFinset_iff hpos).mpr hsettlement, ← settlementTxs_kept]
      rfl
    · rw [← settlementTxs_kept]
      have hlen := length_le_card_toFinset_iff.mpr hsettlement
      rw [List.length_map] at hlen
      exact hcount.trans_le hlen
    · have hlen := length_le_card_toFinset_iff.mpr hinsertion
      rw [List.length_map] at hlen
      exact hcount.trans_le hlen

/-! ### A collection that runs -/

def addressOf (digit : Char) : String := String.ofList ('0' :: 'x' :: List.replicate 40 digit)

def wordOf (digit : Char) : String := String.ofList ('0' :: 'x' :: List.replicate 64 digit)

/-- An address in digits has one spelling. -/
def digitsAddress (value : String) : Option String :=
  match value.toList with
  | '0' :: 'x' :: hex => if hex.length = 40 ∧ hex.all Char.isDigit then some value else none
  | _ => none

def sampleEthers : Ethers where
  isHttps url := "https://".toList.isPrefixOf url.toList
  normalizedAddress := digitsAddress
  keccak256 _ := "0xbc36789e7a1e281436464229828f817d6612f7b477d66591ff96a9e064bcc98a"
  verifyMessage _ _ := some (addressOf '3')
  encodeFunctionData method := if method = "activeCount" then "0x4331ed1f" else "0xfc474d62"
  decodeFunctionResult _ data := if data = wordOf '0' then some 0 else none
  parseTransaction _ _ := some ⟨"transferWithAuthorization", addressOf '5', 100⟩
  parseLog _ := some ⟨"Inserted", 7⟩
  normalizedAddress_idem value address h := by
    unfold digitsAddress at h
    split at h
    · split at h
      · next hex heq hdigits =>
        obtain rfl := Option.some.inj h
        unfold digitsAddress
        rw [heq]
        exact if_pos hdigits
      · cases h
    · cases h

def roleOf (digit : Char) : Role :=
  ⟨addressOf digit, 1, "0xbc36789e7a1e281436464229828f817d6612f7b477d66591ff96a9e064bcc98a"⟩

def sampleTarget : Target where
  status := "live"
  network := "sepolia"
  chainId := 11155111
  protocolVersion := 4
  confirmations := 12
  approvedRpcUrls := ["https://rpc"]
  stakedReputationSet := roleOf '1'
  paidAccessSet := roleOf '2'
  startsAtBlock := 1
  retiresBeforeBlock := none
  payment := ⟨"signed-registrar-chain-verified-v1", ⟨addressOf '4', 6, "USDC"⟩, addressOf '5', "registrar", addressOf '3'⟩

def sampleRpc : Rpc where
  getChainId := some 11155111
  getDelayedFinalizedBlock _ _ := some (some ⟨100, wordOf '6', .iso 0⟩)
  getCode _ _ := some "0x00"
  call _ _ _ := some (wordOf '0')
  getTransaction _ := some (some ⟨some (addressOf '4'), "0xe3ee160e", 0⟩)
  getTransactionReceipt _ := some (some ⟨1, 90, [⟨some (addressOf '2'), [], "0x"⟩]⟩)
  getTransaction_toLower _ := rfl
  getTransactionReceipt_toLower _ := rfl

def sampleFact (insertTx : String) : Fact where
  asset := addressOf '4'
  atomicValue := "100"
  commitment := "7"
  insertTx := insertTx
  payee := addressOf '5'
  rail := "x402"
  settlementTx := wordOf '7'

def sampleAggregate (facts : List Fact) : RegistrarAggregate :=
  ⟨⟨"shade-tree-registrar-settlements-v1", 11155111, .iso 0, "registrar", facts⟩, "EIP-191", "registrar", "0x"⟩

lemma toLower_of_map {l : List Char} (h : l.map Char.toLower = l) : (String.ofList l).toLower = String.ofList l := by
  refine String.toList_inj.mp ?_
  rw [String.toLower, String.toList_map, String.toList_ofList, h]

lemma toLower_word {digit : Char} (h : digit.toLower = digit) : (wordOf digit).toLower = wordOf digit := by
  refine toLower_of_map ?_
  rw [List.map_cons, List.map_cons, List.map_replicate, h]
  rfl

lemma validateLiveOnchainTarget_sample :
    validateLiveOnchainTarget sampleEthers (some sampleTarget) = .ok sampleTarget := rfl

lemma verifyCode_sample (role : Role) (h : role = roleOf '1' ∨ role = roleOf '2') :
    verifyCode sampleEthers [sampleRpc] role 100 = .ok () := by
  have hagreed : agreed [sampleRpc] (fun rpc => rpc.getCode role.address 100) .rpcCode = .ok "0x00" := rfl
  have hhash : (sampleEthers.keccak256 "0x00").toLower = role.runtimeCodeHash.toLower := by
    rcases h with rfl | rfl <;> rfl
  refine bind_ok.mpr ⟨_, hagreed, failIf_bind_ok.mpr ⟨by decide, ?_⟩⟩
  rw [hhash]
  exact failIf_ok.mpr (by simp)

lemma validSettlementFact_sample {digit : Char} (h : (lowerHash (wordOf digit)).isSome) :
    validSettlementFact sampleEthers (sampleFact (wordOf digit)) = true := by
  have hrest : validSettlementFact sampleEthers (sampleFact (wordOf '8')) = true := by decide
  have hinsert : (lowerHash (wordOf '8')).isSome = (lowerHash (wordOf digit)).isSome := by rw [h]; decide
  unfold validSettlementFact at hrest ⊢
  exact hinsert ▸ hrest

lemma delayedBlock_sample : delayedBlock sampleTarget [sampleRpc] 21600000 = .ok (100, wordOf '6', 0) := by
  have hhash : lowerHash (wordOf '6') = some (wordOf '6') :=
    (show lowerHash (wordOf '6') = some (wordOf '6').toLower from rfl).trans (congrArg some (toLower_word rfl))
  have hnow : (toISOString 21600000).bind (fun now => toISOString (now - ISO_DELAY_MS)) = some 0 := rfl
  have hblock : agreed [sampleRpc] (fun rpc => rpc.getDelayedFinalizedBlock 0 sampleTarget.confirmations) .rpcFinality =
      .ok (some ⟨100, wordOf '6', .iso 0⟩) := by
    simp [agreed, sampleRpc]
  unfold delayedBlock
  simp only [hnow, hblock, bind, Except.bind, hhash]
  rfl

lemma readCounter_sample (role : Role) (method : String) :
    readCounter sampleEthers [sampleRpc] role method 100 = .ok 0 := by
  have hagreed : agreed [sampleRpc] (fun rpc => rpc.call role.address (sampleEthers.encodeFunctionData method) 100)
      .rpcCounter = .ok (wordOf '0') := by
    simp [agreed, sampleRpc]
  refine bind_ok.mpr ⟨_, hagreed, ?_⟩
  have hzero : sampleEthers.decodeFunctionResult method (wordOf '0') = some 0 := by simp [sampleEthers]
  rw [hzero]
  rfl

/-- What is collected, when the settlements are known. -/
lemma collect_sample {aggregate : Option RegistrarAggregate} {settlements : Option Settlements}
    (h : collectSettlements sampleEthers sampleTarget [sampleRpc] 100 aggregate = .ok settlements) :
    collectOnchainActivity sampleEthers (some sampleTarget) [sampleRpc] [] aggregate 21600000 =
      .ok ⟨21600000, ⟨11155111, "100", wordOf '6', 0, 12⟩, 0, 0, settlements, 0, 0, ⟨11155111, addressOf '4', 6, "USDC"⟩⟩ := by
  have hchain : agreed [sampleRpc] Rpc.getChainId .rpcChainId = .ok 11155111 := rfl
  unfold collectOnchainActivity
  refine bind_ok.mpr ⟨_, validateLiveOnchainTarget_sample, ?_⟩
  refine failIf_bind_ok.mpr ⟨rfl, bind_ok.mpr ⟨_, hchain, failIf_bind_ok.mpr ⟨rfl, ?_⟩⟩⟩
  refine bind_ok.mpr ⟨_, delayedBlock_sample, ?_⟩
  refine bind_ok.mpr ⟨_, verifyCode_sample _ (.inl rfl), bind_ok.mpr ⟨_, verifyCode_sample _ (.inr rfl), ?_⟩⟩
  refine bind_ok.mpr ⟨_, readCounter_sample _ _, bind_ok.mpr ⟨_, readCounter_sample _ _, ?_⟩⟩
  refine bind_ok.mpr ⟨Activity.start, rfl, failIf_bind_ok.mpr ⟨rfl, bind_ok.mpr ⟨_, h, ?_⟩⟩⟩
  rfl

lemma hasInserted_sample (insertTx : String) : hasInserted sampleEthers sampleTarget (sampleFact insertTx)
    ⟨1, 90, [⟨some (addressOf '2'), [], "0x"⟩]⟩ = true := by
  have hparse (log : Log) : sampleEthers.parseLog log = some ⟨"Inserted", 7⟩ := rfl
  have hcommitment : toString 7 = (sampleFact insertTx).commitment := rfl
  unfold hasInserted
  rw [List.any_cons, Option.any_some, hparse, Option.any_some, hcommitment, beq_self_eq_true, beq_self_eq_true,
    Bool.and_self, Bool.and_true, Bool.or_eq_true]
  exact .inl (decide_eq_true rfl)

lemma verifySettlementFact_sample (insertTx : String) :
    verifySettlementFact sampleEthers (sampleFact insertTx) sampleTarget [sampleRpc] 100 = .ok 100 := by
  have htext : toString 100 = "100" := rfl
  have hvalue : (decimalUint256 (sampleFact insertTx).atomicValue).getD 0 = 100 :=
    show (decimalUint256 "100").getD 0 = 100 by decide
  rw [← hvalue]
  refine verifySettlementFact_of ⟨rfl, rfl⟩ (agreed_single rfl) (agreed_single rfl) (agreed_single rfl) ?_ rfl ?_
    (hasInserted_sample insertTx)
  · simp [sampleTarget]
  · simp [sampleTarget, sampleFact, htext]

/-- The facts of one settlement and of insertions that are told apart. -/
lemma collectSettlements_sample {facts : List Fact} {settled : ℕ × ℕ}
    (hvalid : facts.all (validSettlementFact sampleEthers) = true) (hlen : facts.length ≤ 100000)
    (hloop : settleAll (fun fact => verifySettlementFact sampleEthers fact sampleTarget [sampleRpc] 100) [] 0 0 facts =
      .ok settled) :
    collectSettlements sampleEthers sampleTarget [sampleRpc] 100 (some (sampleAggregate facts)) =
      .ok (some ⟨settled.2, toString settled.1⟩) := by
  refine bind_ok.mpr ⟨_, validateRegistrarAggregate_of ?_ rfl rfl, bind_ok.mpr ⟨settled, hloop, rfl⟩⟩
  simp [hvalid, hlen, sampleAggregate, sampleTarget, GROVE_SETTLEMENT_SCHEMA, Time.isIso]

lemma sampleFact_key : (sampleFact (wordOf '9')).key ≠ (sampleFact (wordOf '8')).key := by
  intro heq
  have hinsert : (wordOf '9').toLower = (wordOf '8').toLower := by
    simpa [Fact.key, sampleFact] using heq
  rw [toLower_word rfl, toLower_word rfl] at hinsert
  exact absurd hinsert (by decide)

/-- One insertion, which the settlement has paid for. -/
theorem settlements_count_once_single : ∃ obs settlements,
    collectOnchainActivity sampleEthers (some sampleTarget) [sampleRpc] []
      (some (sampleAggregate [sampleFact (wordOf '8')])) 21600000 = .ok obs ∧ obs.settlements = some settlements ∧
    CountsOnce sampleEthers sampleTarget [sampleRpc] [sampleFact (wordOf '8')] settlements := by
  have hloop : settleAll (fun fact => verifySettlementFact sampleEthers fact sampleTarget [sampleRpc] 100) [] 0 0
      [sampleFact (wordOf '8')] = .ok (100, 1) :=
    settleAll_single (verifySettlementFact_sample _)
  have hcollect := collect_sample (collectSettlements_sample (by decide) (by decide) hloop)
  obtain ⟨settlements, hsettlements, hiff⟩ := settlements_count_once hcollect
  exact ⟨_, settlements, hcollect, hsettlements, hiff.mpr (List.pairwise_singleton _ _)⟩

/-- The settlement counts twice when it is paired with two insertions. -/
theorem settlements_count_twice : ¬ ∀ (E : Ethers) (target : Target) (rpcs : List Rpc) (events : List ActivityEvent)
    (aggregate : RegistrarAggregate) (now : ℤ) (obs : Observation) (settlements : Settlements),
    collectOnchainActivity E (some target) rpcs events (some aggregate) now = .ok obs →
      obs.settlements = some settlements → CountsOnce E target rpcs aggregate.payload.settlements settlements := by
  intro hall
  have hloop : settleAll (fun fact => verifySettlementFact sampleEthers fact sampleTarget [sampleRpc] 100) [] 0 0
      [sampleFact (wordOf '8'), sampleFact (wordOf '9')] = .ok (100 + 100, 2) :=
    settleAll_pair sampleFact_key (verifySettlementFact_sample _) (verifySettlementFact_sample _)
  have hcollect := collect_sample (collectSettlements_sample (by decide) (by decide) hloop)
  have hle : 2 ≤ (settlementTxs [sampleFact (wordOf '8'), sampleFact (wordOf '9')]).card :=
    (hall _ _ _ _ _ _ _ _ hcollect rfl).settlements_le
  have hcard : (settlementTxs [sampleFact (wordOf '8'), sampleFact (wordOf '9')]).card = 1 := by
    have hpair : settlementTxs [sampleFact (wordOf '8'), sampleFact (wordOf '9')] = {(wordOf '7').toLower} := by
      simp [settlementTxs, sampleFact]
    rw [hpair, Finset.card_singleton]
  omega

end ShadeTree.Grove.Collector
