import ShadeTree.Payments.Mpp

/-!
# Honest payments (the round trip of an offer over x402 and over MPP)

What the server makes of the payload or credential that an honest buyer builds for a tier: it is refused if its
encodings are too long or the amount is no uint256, and otherwise it is taken for the lowest tier at that price.
-/

namespace ShadeTree.Payments

open ShadeTree.Lib ShadeTree.Lib.Text

/-! ### The request -/

/-- The request with its keys in order, and the price of the tier. -/
def requestOf (offer : Offer) (limit : ℕ) (price : String) : Value := .obj [
  ("amount", .str price),
  ("currency", .str offer.asset),
  ("description", .str s!"{offer.description} (tier {limit})"),
  ("externalId", .str s!"limit={limit}"),
  ("methodDetails", .obj [
    ("chainId", number offer.chainId),
    ("credentialTypes", .arr [.str "authorization"]),
    ("decimals", number offer.decimals),
    ("eip712Domain", .obj [("name", .str offer.assetName), ("version", .str offer.assetVersion)]),
    ("permit2Address", .str PERMIT2_CANONICAL)]),
  ("recipient", .str offer.payTo)]

lemma jcs_number (n : ℤ) : jcs (number n) = .ok (Decimal.ofInt n).text := by
  unfold number
  rw [jcs, Decimal.toInt?_ofInt]
  rfl

lemma jcs_mppRequest {offer : Offer} {limit : ℕ} {price : String} (hsold : (limit, price) ∈ offer.tiers.entries) :
    jcs (mppRequest offer limit) = .ok (requestOf offer limit price).stringify := by
  have hamount : ((priceOf offer limit).map Json.str).getD (.null : Value) = .str price := by
    unfold priceOf
    rw [Tiers.get_of_mem hsold]
    rfl
  unfold mppRequest
  rw [hamount]
  simp only [jcs, jcsFields, jcsItems, jcs_number]
  refine congrArg Except.ok ?_
  simp [keyLe, requestOf, number, Value.stringify, Value.clean, Json.bind, Json.bindFields, Json.bindItems, Json.write,
    Json.writeFields, Json.writeItems]

/-! ### What a challenge is -/

lemma b64url_ne {s : String} (h : s ≠ "") : b64url s ≠ "" := by
  intro he
  have hdec := congrArg (fun t => Utf8.decode (Base64.decode t.toList)) he
  simp only [b64url, String.toList_ofList, Base64.decode_encode, Utf8.decode_encode] at hdec
  exact h (hdec.trans rfl)

/-- A challenge for a tier of the offer whose code verifies. -/
structure Genuine (R : Platform) (offer : Offer) (limit : ℕ) (secret digest : String) (c : MppChallenge) : Prop where
  id : c.id = mppChallengeId R secret c.slots
  realm : c.slots.realm = offer.realm
  method : c.slots.method = MPP_METHOD
  intent : c.slots.intent = MPP_INTENT
  digest : c.slots.digest = digest
  request : ∃ text, jcs (mppRequest offer limit) = .ok text ∧ c.slots.request = b64url (String.ofList text)
  expires_ne : c.slots.expires ≠ ""

/-- The parts of an issued challenge. -/
structure Issued (R : Platform) (offer : Offer) (limit : ℕ) (secret digest : String) (c : MppChallenge) : Prop
    extends Genuine R offer limit secret digest c where
  expires : ∃ date : List Char, (∀ ch ∈ date, IsoDate.isDateChar ch = true) ∧ c.slots.expires = String.ofList (date ++ ['Z'])
  data : ∃ text : String, c.slots.data = b64url text

lemma rfc3339_eq (ms : ℤ) : rfc3339 ms = (IsoDate.dateTime ms).map fun text => String.ofList (text ++ ['Z']) := by
  rw [← IsoDate.take_toISOString, Option.map_map]
  rfl

lemma issued_of_mppChallenge {R : Platform} {offer : Offer} {limit : ℕ} {secret digest random : String} {nowMs : ℤ}
    {c : MppChallenge} (h : mppChallenge R offer limit secret digest nowMs random = some c) :
    Issued R offer limit secret digest c := by
  unfold mppChallenge at h
  obtain ⟨request, hrequest, h⟩ := Option.bind_eq_some_iff.mp h
  obtain ⟨expires, hexpires, h⟩ := Option.bind_eq_some_iff.mp h
  obtain ⟨data, hdata, h⟩ := Option.bind_eq_some_iff.mp h
  rw [rfc3339_eq, Option.map_eq_some_iff] at hexpires
  obtain ⟨date, hdate, rfl⟩ := hexpires
  obtain rfl := (Option.some.inj h).symm
  refine ⟨⟨rfl, rfl, rfl, rfl, rfl, ⟨request, ?_, rfl⟩, ?_⟩, ⟨date, IsoDate.isDateChar_dateTime hdate, rfl⟩, _, rfl⟩
  · cases hjcs : jcs (mppRequest offer limit) with
    | error e =>
      rw [hjcs] at hrequest
      cases hrequest
    | ok text =>
      rw [hjcs] at hrequest
      rw [Option.some.inj hrequest]
  · intro h
    have hlist := congrArg String.toList h
    rw [String.toList_ofList] at hlist
    exact List.append_ne_nil_of_right_ne_nil _ (List.cons_ne_nil _ _) hlist

/-! ### What is echoed -/

section Echo
variable (c : MppChallenge)

lemma echo_get : ∀ p ∈ [("id", c.id), ("realm", c.slots.realm), ("method", c.slots.method),
    ("intent", c.slots.intent), ("request", c.slots.request), ("opaque", c.slots.data),
    ("expires", c.slots.expires)], (mppEcho c).get p.1 = some (.str p.2) := by
  simp only [List.forall_mem_cons]
  unfold mppEcho
  split <;> exact ⟨rfl, rfl, rfl, rfl, rfl, rfl, rfl, fun p hp => by cases hp⟩

lemma echo_field (k s : String) (h : (k, s) ∈ [("id", c.id), ("realm", c.slots.realm), ("method", c.slots.method),
    ("intent", c.slots.intent), ("request", c.slots.request), ("opaque", c.slots.data),
    ("expires", c.slots.expires)]) : field (some (mppEcho c)) k = some (.str s) := echo_get c (k, s) h

lemma echo_digest : (mppEcho c).get "digest" =
    if c.slots.digest = "" then none else some (.str c.slots.digest) := by
  unfold mppEcho
  split <;> rfl

lemma slotText_str (s : String) : slotText (some (.str s)) = some s := by
  unfold slotText
  by_cases hs : s = ""
  · rw [hs]
    rfl
  · have ht : Value.truthy (.str s) = true := by simp [Value.truthy, hs]
    simp only [ht, if_true, Value.toText, Option.map_some, String.ofList_toList]

/-- The slots of an echo are those of the challenge. -/
lemma echoedSlots_mppEcho : echoedSlots (some (mppEcho c)) = some c.slots := by
  have hdigest : slotText ((mppEcho c).get "digest") = some c.slots.digest := by
    rw [echo_digest]
    split
    · next h =>
      rw [h]
      rfl
    · exact slotText_str _
  have hfield := echo_field c
  unfold echoedSlots
  rw [hfield "realm" c.slots.realm (by simp), hfield "method" c.slots.method (by simp),
    hfield "intent" c.slots.intent (by simp), hfield "request" c.slots.request (by simp),
    hfield "expires" c.slots.expires (by simp), hfield "opaque" c.slots.data (by simp)]
  simp only [slotText_str, field, Option.bind_some, hdigest]
  rfl

lemma wire_mppEcho : (mppEcho c).wire = mppEcho c := by
  unfold mppEcho
  split <;> rfl

end Echo

/-! ### An honest credential -/

lemma not_isWhiteSpace {c : Char} (h : c ∈ Base64.alphabet true) : isWhiteSpace c = false := by
  have hall : ∀ c ∈ Base64.alphabet true, isWhiteSpace c = false := Text.forall_of_all (by decide)
  exact hall c h

lemma credentialText_of {body : List Char} (hne : body ≠ []) (hbody : ∀ c ∈ body, c ∈ Base64.alphabet true) :
    credentialText (String.ofList ("Payment ".toList ++ body)) = some (String.ofList body) := by
  have hlast : ∀ h, isWhiteSpace (("Payment ".toList ++ body).getLast h) = false := by
    intro h
    rw [List.getLast_append_of_ne_nil _ hne]
    exact not_isWhiteSpace (hbody _ (List.getLast_mem hne))
  have htrim : trim ("Payment ".toList ++ body) = "Payment ".toList ++ body := by
    have hhead : ("Payment ".toList ++ body).dropWhile isWhiteSpace = "Payment ".toList ++ body := rfl
    rw [trim, hhead, List.rdropWhile_eq_self_iff]
    intro h
    rw [hlast h]
    exact Bool.false_ne_true
  have hdrop : ("Payment ".toList ++ body).drop 7 = ' ' :: body := rfl
  have hgroup : (' ' :: body).dropWhile (fun c => decide (c = ' ') || decide (c = '\t')) = body := by
    cases body with
    | nil => exact absurd rfl hne
    | cons c body =>
      have hc : (decide (c = ' ') || decide (c = '\t')) = false := by
        have hall : ∀ c ∈ Base64.alphabet true, (decide (c = ' ') || decide (c = '\t')) = false :=
          Text.forall_of_all (by decide)
        exact hall c (hbody c List.mem_cons_self)
      rw [List.dropWhile_cons_of_pos (by decide), List.dropWhile_cons_of_neg (by rw [hc]; exact Bool.false_ne_true)]
  have hurl : isUrlText body = true := by
    unfold isUrlText
    simp only [hne, ne_eq, not_false_eq_true, decide_true, Bool.true_and, List.all_eq_true, decide_eq_true_eq]
    exact hbody
  unfold credentialText
  rw [String.toList_ofList]
  simp only [htrim, hdrop, hgroup, hurl]
  rw [if_pos (List.prefix_append_of_prefix (by decide) : "Payment".toList <+: "Payment ".toList ++ body)]
  simp

/-- What an honest buyer sends in answer to a challenge. -/
def mppPayload (offer : Offer) (price nonce : String) (buyer : Buyer) : Value := .obj (
  [("type", .str "authorization")] ++ (buyer.authorization offer price nonce).fields ++
    [("signature", .str buyer.signature)])

def mppHeader (c : MppChallenge) (payload : Value) (source : Option String) : String :=
  String.ofList ("Payment ".toList ++ (mppCredential c payload source).toList)

lemma wire_mppCredentialJson (c : MppChallenge) (offer : Offer) (price nonce : String) (buyer : Buyer)
    (source : Option String) :
    (mppCredentialJson c (mppPayload offer price nonce buyer) source).wire =
      mppCredentialJson c (mppPayload offer price nonce buyer) source := by
  unfold mppCredentialJson
  rw [Value.wire_obj, List.map_append, List.map_cons, wire_mppEcho]
  cases source with
  | none => rfl
  | some s => by_cases hs : s = "" <;> simp only [hs, if_true, if_false] <;> rfl

/-- The header is read back, if it is not too long. -/
lemma decode_mppHeader (R : Platform) (c : MppChallenge) (offer : Offer) (price nonce : String) (buyer : Buyer)
    (source : Option String) :
    ∃ group, credentialText (mppHeader c (mppPayload offer price nonce buyer) source) = some group ∧
      (b64decode true group).bind (jsonParseSafe R.parse) =
        if 16 * 1024 < (mppCredential c (mppPayload offer price nonce buyer) source).toList.length then none
        else some (mppCredentialJson c (mppPayload offer price nonce buyer) source) := by
  have hjson : String.ofList (mppCredentialJson c (mppPayload offer price nonce buyer) source).stringify ≠ "" :=
    stringify_obj_ne _
  refine ⟨mppCredential c (mppPayload offer price nonce buyer) source, ?_, ?_⟩
  · unfold mppHeader
    have hmem : ∀ ch ∈ (mppCredential c (mppPayload offer price nonce buyer) source).toList,
        ch ∈ Base64.alphabet true := by
      intro ch hch
      unfold mppCredential b64url at hch
      rw [String.toList_ofList] at hch
      exact Base64.mem_encode_url hch
    have hne : (mppCredential c (mppPayload offer price nonce buyer) source).toList ≠ [] := by
      intro h
      exact b64url_ne hjson (String.toList_inj.mp h)
    rw [credentialText_of hne hmem, String.ofList_toList]
  · unfold mppCredential
    rw [b64decode_b64url hjson]
    split
    · rfl
    · refine (jsonParseSafe_stringify R.toJsonReader _).trans (congrArg some ?_)
      exact wire_mppCredentialJson c offer price nonce buyer source

section Honest

variable {R : Platform} {offer : Offer} {limit : ℕ} {price secret digest : String} {c : MppChallenge} {buyer : Buyer}

lemma Genuine.request_eq (hgenuine : Genuine R offer limit secret digest c)
    (hsold : (limit, price) ∈ offer.tiers.entries) :
    c.slots.request = b64url (String.ofList (requestOf offer limit price).stringify) := by
  obtain ⟨text, hjcs, hrequest⟩ := hgenuine.request
  rw [jcs_mppRequest hsold] at hjcs
  rw [hrequest, Except.ok.inj hjcs]

lemma find_missing (hgenuine : Genuine R offer limit secret digest c) (hsold : (limit, price) ∈ offer.tiers.entries) :
    (["id", "realm", "method", "intent", "request"].find? fun k =>
      (text (field (some (mppEcho c)) k)).getD "" = "") = none := by
  have hfield := echo_field c
  have hid : c.id ≠ "" := hgenuine.id ▸ R.hmac_ne _ _
  have hrealm : c.slots.realm ≠ "" := hgenuine.realm ▸ offer.realm_ne
  have hmethod : c.slots.method ≠ "" := hgenuine.method ▸ by decide
  have hintent : c.slots.intent ≠ "" := hgenuine.intent ▸ by decide
  have hrequest : c.slots.request ≠ "" := hgenuine.request_eq hsold ▸ b64url_ne (stringify_obj_ne _)
  have htext : ∀ s : String, (text (some (.str s))).getD "" = s := fun _ => rfl
  rw [List.find?_eq_none]
  intro k hk
  rw [decide_eq_true_eq]
  simp only [List.mem_cons, List.not_mem_nil, or_false] at hk
  rcases hk with rfl | rfl | rfl | rfl | rfl
  · rwa [hfield "id" c.id (by simp), htext]
  · rwa [hfield "realm" c.slots.realm (by simp), htext]
  · rwa [hfield "method" c.slots.method (by simp), htext]
  · rwa [hfield "intent" c.slots.intent (by simp), htext]
  · rwa [hfield "request" c.slots.request (by simp), htext]

lemma decode_request (hgenuine : Genuine R offer limit secret digest c)
    (hsold : (limit, price) ∈ offer.tiers.entries) :
    (b64decode true c.slots.request).bind (jsonParseSafe R.parse) =
      if 16 * 1024 < c.slots.request.toList.length then none else some (requestOf offer limit price) := by
  have hne : String.ofList (requestOf offer limit price).stringify ≠ "" := stringify_obj_ne _
  rw [hgenuine.request_eq hsold, b64decode_b64url hne]
  split
  · rfl
  · exact jsonParseSafe_stringify R.toJsonReader _

/-- The digest that is echoed is that of the body. -/
lemma echo_body {bodyDigest : Option String} (hbody : c.slots.digest ≠ "" → bodyDigest = some c.slots.digest) :
    ¬ ((truthyOf (field (some (mppEcho c)) "digest")).isSome = true ∧
      (bodyDigest.getD "" = "" ∨ text (field (some (mppEcho c)) "digest") ≠ bodyDigest)) := by
  have hget : field (some (mppEcho c)) "digest" = if c.slots.digest = "" then none else some (.str c.slots.digest) :=
    echo_digest c
  rw [hget]
  by_cases hd : c.slots.digest = ""
  · rw [if_pos hd]
    exact fun h => absurd h.1 Bool.false_ne_true
  · rw [if_neg hd, hbody hd]
    rintro ⟨-, h | h⟩
    · exact hd h
    · exact h rfl

lemma credential_fields (c : MppChallenge) (payload : Value) (source : Option String) :
    (mppCredentialJson c payload source).get "challenge" = some (mppEcho c) ∧
      (mppCredentialJson c payload source).get "payload" = some payload := by
  unfold mppCredentialJson
  cases source with
  | none => exact ⟨rfl, rfl⟩
  | some s => by_cases hs : s = "" <;> simp only [hs, if_true, if_false] <;> exact ⟨rfl, rfl⟩

/-- What the server makes of an honest credential that comes in time, with the body that was challenged. -/
theorem parseMppCredential_honest (hgenuine : Genuine R offer limit secret digest c)
    (hsold : (limit, price) ∈ offer.tiers.entries) {bodyDigest : Option String}
    (hbody : digest ≠ "" → bodyDigest = some digest) {expires nowMs : ℤ}
    (hexpires : R.dateParse c.slots.expires = some expires) (hnow : nowMs < expires) (source : Option String)
    {nonce : String} (hnonce : nonce = mppNonce R c.id c.slots.realm) (r : MppPayment) :
    parseMppCredential R (some (mppHeader c (mppPayload offer price nonce buyer) source)) secret offer bodyDigest nowMs =
        .ok r ↔
      (mppCredential c (mppPayload offer price nonce buyer) source).toList.length ≤ 16 * 1024 ∧
      c.slots.request.toList.length ≤ 16 * 1024 ∧ isUint price = true ∧
      ∃ l, tierForAmount offer (some (.str price)) = some l ∧
        r = ⟨l, some (mppEcho c), requestOf offer limit price, some (.obj (buyer.authorization offer price nonce).fields),
          buyer.signature, text ((mppCredentialJson c (mppPayload offer price nonce buyer) source).get "source")⟩ := by
  obtain ⟨group, hgroup, hcred⟩ := decode_mppHeader R c offer price nonce buyer source
  unfold parseMppCredential
  dsimp only
  rw [hgroup]
  dsimp only
  rw [hcred]
  by_cases hlen : 16 * 1024 < (mppCredential c (mppPayload offer price nonce buyer) source).toList.length
  · rw [if_pos hlen]
    exact ⟨fun h => (by cases h), fun h => absurd h.1 (by omega)⟩
  have hfield := echo_field c
  obtain ⟨hch, hpl⟩ := credential_fields c (mppPayload offer price nonce buyer) source
  have hobj : isObject (some (mppEcho c)) = true := rfl
  have hplobj : isObject (some (mppPayload offer price nonce buyer)) = true := rfl
  have hstr : ∀ s : String, text (some (.str s)) = some s := fun _ => rfl
  have hslots : echoedSlots (some (mppEcho c)) = some c.slots := echoedSlots_mppEcho c
  have htruthy : (truthyOf (some (.str c.slots.expires))).isSome = true := by
    simp [truthyOf, Value.truthy, hgenuine.expires_ne]
  have htype : text (field (some (mppPayload offer price nonce buyer)) "type") = some "authorization" := rfl
  have hsignature : field (some (mppPayload offer price nonce buyer)) "signature" = some (.str buyer.signature) := rfl
  have hsig : isSignature (some (.str buyer.signature)) = true := buyer.signature_hex
  have hauth : authorizationOf (some (mppPayload offer price nonce buyer)) =
      some (.obj (buyer.authorization offer price nonce).fields) := rfl
  have hamount : (requestOf offer limit price).get "amount" = some (.str price) := rfl
  have hcurrency : sameAddress ((requestOf offer limit price).get "currency") (some (.str offer.asset)) = true :=
    sameAddress_self offer.asset_address
  have hrecipient : (requestOf offer limit price).get "recipient" = some (.str offer.payTo) := rfl
  have hpayTo : sameAddress (some (.str offer.payTo)) (some (.str offer.payTo)) = true :=
    sameAddress_self offer.payTo_address
  have hto : field (some (.obj (buyer.authorization offer price nonce).fields)) "to" = some (.str offer.payTo) := rfl
  have hvalue : field (some (.obj (buyer.authorization offer price nonce).fields)) "value" = some (.str price) := rfl
  have hnonce' : field (some (.obj (buyer.authorization offer price nonce).fields)) "nonce" = some (.str nonce) := rfl
  have hlower : lower nonce = mppNonce R (mppChallengeId R secret c.slots) offer.realm := by
    rw [hnonce, ← hgenuine.id, ← hgenuine.realm]
    exact (R.keccak256_hex _).2
  have hhex : isHexString 64 nonce = true := by
    rw [hnonce]
    exact (R.keccak256_hex _).1
  obtain ⟨l, hl, -⟩ := tierForAmount_price hsold
  simp only [if_neg hlen, hch, hpl, hobj, find_missing hgenuine hsold, hfield "method" c.slots.method (by simp),
    hfield "intent" c.slots.intent (by simp), hfield "realm" c.slots.realm (by simp), hfield "id" c.id (by simp),
    hfield "expires" c.slots.expires (by simp), hstr, hgenuine.method, hgenuine.intent, hgenuine.realm, hslots, hgenuine.id,
    htruthy, hexpires, decode_request hgenuine hsold, hplobj, htype, hsignature, hsig, hauth, if_true, if_false,
    ne_eq, not_true_eq_false, or_self, Bool.true_eq_false]
  rw [if_neg (by omega), if_neg (echo_body fun hd => hgenuine.digest ▸ hbody (hgenuine.digest ▸ hd))]
  by_cases hrequest : 16 * 1024 < c.slots.request.toList.length
  · rw [if_pos hrequest]
    exact ⟨fun h => (by cases h), fun h => absurd h.2.1 (by omega)⟩
  simp only [if_neg hrequest, hamount, hl, hcurrency, hrecipient, hpayTo, hto, hvalue, hnonce', hstr, hlower,
    Option.map_some, Bool.true_eq_false, or_self, if_false, not_true_eq_false]
  by_cases hprice : isUint price = true
  · rw [(wellShaped_authorization hhex).mpr hprice]
    dsimp only
    constructor
    · intro h
      exact ⟨by omega, by omega, hprice, l, rfl, (Except.ok.inj h).symm⟩
    · rintro ⟨-, -, -, l', hl', rfl⟩
      rw [Option.some.inj hl']
  · cases hshape : checkAuthorizationShape (some (.obj (buyer.authorization offer price nonce).fields)) with
    | none => exact absurd ((wellShaped_authorization hhex).mp hshape) hprice
    | some e => exact ⟨fun h => (by cases h), fun h => absurd h.2.2.1 hprice⟩

/-- The tier of an honest credential is recovered exactly if no lower tier has its price, as far as the credential can
be sent and read at all. -/
theorem mpp_recovers (hgenuine : Genuine R offer limit secret digest c) (hsold : (limit, price) ∈ offer.tiers.entries)
    (hpositive : offer.tiers.Positive) {bodyDigest : Option String} (hbody : digest ≠ "" → bodyDigest = some digest)
    {expires nowMs : ℤ} (hexpires : R.dateParse c.slots.expires = some expires) (hnow : nowMs < expires)
    (source : Option String) {nonce : String} (hnonce : nonce = mppNonce R c.id c.slots.realm) :
    (∃ r, parseMppCredential R (some (mppHeader c (mppPayload offer price nonce buyer) source)) secret offer bodyDigest
        nowMs = .ok r ∧ r.limit = limit ∧ text (field r.authorization "value") = some price) ↔
      (mppCredential c (mppPayload offer price nonce buyer) source).toList.length ≤ 16 * 1024 ∧
      c.slots.request.toList.length ≤ 16 * 1024 ∧
      numberOf price.toList < 2 ^ 256 ∧ Unambiguous offer.tiers limit price := by
  obtain ⟨l, hl, -, hlowest⟩ := tierForAmount_price hsold
  have hprice := isUint_of_isPositive (hpositive _ hsold)
  constructor
  · rintro ⟨r, hr, hlimit, -⟩
    obtain ⟨hlen, hrequest, huint, l', hl', rfl⟩ :=
      (parseMppCredential_honest hgenuine hsold hbody hexpires hnow source hnonce r).mp hr
    obtain rfl : l = l' := Option.some.inj (hl.symm.trans hl')
    exact ⟨hlen, hrequest, hprice.mp huint, hlowest.mp hlimit⟩
  · rintro ⟨hlen, hrequest, huint, hun⟩
    exact ⟨_, (parseMppCredential_honest hgenuine hsold hbody hexpires hnow source hnonce _).mpr
      ⟨hlen, hrequest, hprice.mpr huint, l, hl, rfl⟩, hlowest.mpr hun, rfl⟩

end Honest

/-- **Round trip of an offer.** The payload, or the credential for an issued challenge, that a buyer builds for a tier
of a parsed price list comes back as that tier's limit and amount exactly if no lower tier has the same price, the
amount is a uint256, the chain's identifier is read back (over x402) and the encodings are within 16 KiB. -/
theorem offer_round_trip {spec : String} {offer : Offer} (hprices : parsePrices spec = .ok offer.tiers) {limit : ℕ}
    {price : String} (hsold : (limit, price) ∈ offer.tiers.entries) (R : Platform) (buyer : Buyer) :
    (∀ limits error nonce, isHexString 64 nonce = true →
      ((∃ r, parseX402Payment R.parse (x402Header offer limits error limit price buyer nonce) offer = .ok r ∧
          r.limit = limit ∧ text (field r.authorization "value") = some price) ↔
        (x402Header offer limits error limit price buyer nonce).toList.length ≤ 16 * 1024 ∧
        chainIdOfCaip2 (some (.str (caip2 offer.chainId))) = some offer.chainId ∧
        numberOf price.toList < 2 ^ 256 ∧ Unambiguous offer.tiers limit price)) ∧
    ∀ secret digest issuedAt random c source bodyDigest expires nowMs,
      mppChallenge R offer limit secret digest issuedAt random = some c → (digest ≠ "" → bodyDigest = some digest) →
      R.dateParse c.slots.expires = some expires → nowMs < expires →
      ((∃ r, parseMppCredential R
          (some (mppHeader c (mppPayload offer price (mppNonce R c.id c.slots.realm) buyer) source)) secret offer
          bodyDigest nowMs = .ok r ∧ r.limit = limit ∧ text (field r.authorization "value") = some price) ↔
        (mppCredential c (mppPayload offer price (mppNonce R c.id c.slots.realm) buyer) source).toList.length ≤
          16 * 1024 ∧
        c.slots.request.toList.length ≤ 16 * 1024 ∧
        numberOf price.toList < 2 ^ 256 ∧ Unambiguous offer.tiers limit price) := by
  have hpositive := parsePrices_positive hprices
  constructor
  · intro limits error nonce hnonce
    exact x402_recovers R.toJsonReader limits error hsold hpositive hnonce
  · intro secret digest issuedAt random c source bodyDigest expires nowMs hc hbody hexpires hnow
    exact mpp_recovers (issued_of_mppChallenge hc).toGenuine hsold hpositive hbody hexpires hnow source rfl

/-! ### An offer of two tiers -/

/-- An offer of tier 8 for 100000 and tier 32 for `price`. -/
def leafOffer (price : String) : Offer where
  chainId := 11155111
  asset := "0x1c7D4B196Cb0C7B01d743Fbc6116a902379C7238"
  assetName := "USDC"
  assetVersion := "2"
  decimals := 6
  payTo := "0xc8606C75E003EDA7C0a377B4708AbEC6EB7a7f02"
  tiers := ⟨[(8, "100000"), (32, price)], by simp⟩
  maxTimeoutSeconds := 600
  realm := "bootnode.onion"
  resourceUrl := "http://bootnode.onion:8878/pay"
  description := "leaf"
  asset_address := by decide
  payTo_address := by decide
  realm_ne := by decide

def leafBuyer : Buyer where
  address := "0x857b06519E91e3A54538791bDbb0E22373e36b66"
  validAfter := "0"
  validBefore := "1786925400"
  signature := String.ofList ('0' :: 'x' :: List.replicate 130 'a')
  address_hex := by decide
  validAfter_uint := by decide
  validBefore_uint := by decide
  signature_hex := by
    rw [isHexString, String.toList_ofList]
    decide +kernel

/-- A platform with the values of its functions at one challenge. -/
noncomputable def leafPlatform (id nonce : String) (hid : id ≠ "")
    (hnonce : isHexString 64 nonce = true ∧ lower nonce = nonce) : Platform where
  toJsonReader := .written
  hmac _ _ := id
  keccak256 _ := nonce
  dateParse s := if s = "2026-08-17T00:10:00Z" then some 1786925400000 else none
  hmac_ne _ _ := hid
  keccak256_hex _ := hnonce

/-- The slots of the challenge for tier 32 of an offer, issued at midnight. -/
def midnightSlots (offer : Offer) (price : String) : Slots :=
  ⟨offer.realm, "evm", "charge", b64url (String.ofList (requestOf offer 32 price).stringify), "2026-08-17T00:10:00Z", "",
    b64url "\x7b\"limit\":\"32\",\"nonce\":\"00112233445566778899aabb\"\x7d"⟩

/-- The challenge for tier 32 of a leaf with its code under the secret `s3cret`. -/
def leafChallenge (id price : String) : MppChallenge := ⟨id, midnightSlots (leafOffer price) price, "leaf (tier 32)"⟩

lemma mppChallenge_midnight (R : Platform) {offer : Offer} (htimeout : offer.maxTimeoutSeconds = 600) {price : String}
    (hsold : (32, price) ∈ offer.tiers.entries) (secret : String) :
    mppChallenge R offer 32 secret "" 1786924800000 "00112233445566778899aabb" =
      some ⟨mppChallengeId R secret (midnightSlots offer price), midnightSlots offer price,
        s!"{offer.description} (tier {32})"⟩ := by
  have hdata : jcs (.obj [("limit", .str (toString 32)), ("nonce", .str "00112233445566778899aabb")]) =
      .ok "\x7b\"limit\":\"32\",\"nonce\":\"00112233445566778899aabb\"\x7d".toList := by decide
  have hdate : rfc3339 (1786924800000 + ((600 : ℕ) : ℤ) * 1000) = some "2026-08-17T00:10:00Z" := by decide
  unfold mppChallenge
  rw [jcs_mppRequest hsold, hdata, htimeout, hdate]
  simp only [Except.toOption, Option.bind_eq_bind, Option.bind_some, String.ofList_toList]
  rfl

lemma mppChallenge_leaf {id nonce price : String} {hid : id ≠ ""}
    {hnonce : isHexString 64 nonce = true ∧ lower nonce = nonce} :
    mppChallenge (leafPlatform id nonce hid hnonce) (leafOffer price) 32 "s3cret" "" 1786924800000
      "00112233445566778899aabb" = some (leafChallenge id price) :=
  mppChallenge_midnight (leafPlatform id nonce hid hnonce) rfl (by simp [leafOffer]) "s3cret"

/-- A nonce for x402. -/
def leafNonce : String := "0xf3746613c2d920b5fdabc0856f2aeb2d4f88ee6037b8cc5d04a71a4462f13480"

/-- The platform at the challenge for tier 32 at 400000. -/
noncomputable def apartPlatform : Platform :=
  leafPlatform "0RQnutnvoju6mkJnY2oWXMiS1mlgsCKEtr-msCr_KXg"
    "0xf512a4867f8d7a71efc8a5fa87c9aefe07959b499d8f7c3ea9bb10efa8b960bf" (by decide) (by decide)

/-- The platform at the challenge for tier 32 at 100000. -/
noncomputable def equalPlatform : Platform :=
  leafPlatform "omRlR5RqLAUXsNm70T6zU-JZMQgyEDUFQaXfp0-7Jns"
    "0x665663e895e3da43615438d2271b88ce5071532e0ac98a2e9f2b4a87b1f67900" (by decide) (by decide)

/-- The header that answers the challenge for tier 32. -/
def leafHeader (id nonce price : String) : String :=
  mppHeader (leafChallenge id price) (mppPayload (leafOffer price) price nonce leafBuyer) none

lemma length_utf8_le (l : List Char) : (Utf8.encode (String.ofList l)).length ≤ 4 * l.length := by
  rw [Utf8.encode, String.toList_ofList]
  induction l with
  | nil => simp
  | cons c l ih =>
    have hc := c.utf8Size_le_four
    simp only [List.flatMap_cons, List.length_append, String.length_utf8EncodeChar, List.length_cons]
    omega

lemma length_b64_le (l : List Char) : (b64 (String.ofList l)).toList.length ≤ 4 * ((4 * l.length + 2) / 3) := by
  have hutf8 := length_utf8_le l
  have hlen := Base64.length_encode_le false (Utf8.encode (String.ofList l))
  rw [b64, String.toList_ofList]
  omega

lemma length_b64url (s : String) : (b64url s).toList.length ≤ 4 * (((Utf8.encode s).length + 2) / 3) := by
  rw [b64url, String.toList_ofList]
  exact Base64.length_encode_le true _

lemma length_b64url_le (l : List Char) : (b64url (String.ofList l)).toList.length ≤ 4 * ((4 * l.length + 2) / 3) := by
  have hutf8 := length_utf8_le l
  have hlen := length_b64url (String.ofList l)
  omega

lemma quote_signature : Json.quote leafBuyer.signature =
    '"' :: (('0' :: 'x' :: List.replicate 130 'a').flatMap Json.escape ++ ['"']) := by
  rw [Json.quote]
  unfold leafBuyer
  rw [String.toList_ofList]

lemma length_quote_append (s t : String) :
    (Json.quote (s ++ t)).length + 2 = (Json.quote s).length + (Json.quote t).length := by
  simp only [Json.quote, String.toList_append, List.flatMap_append, List.length_cons, List.length_append, List.length_nil]
  omega

lemma length_quote_b64url (s : String) :
    (Json.quote (b64url s)).length ≤ 4 * (((Utf8.encode s).length + 2) / 3) + 2 := by
  have hescape : ∀ c ∈ Base64.alphabet true, (Json.escape c).length = 1 := Text.forall_of_all (by decide)
  have hflat : ∀ l : List Char, (∀ c ∈ l, c ∈ Base64.alphabet true) → (l.flatMap Json.escape).length = l.length := by
    intro l hl
    induction l with
    | nil => rfl
    | cons c l ih =>
      obtain ⟨hc, hl⟩ := List.forall_mem_cons.mp hl
      rw [List.flatMap_cons, List.length_append, ih hl, hescape c hc, List.length_cons, Nat.add_comm]
  have hlen := length_b64url s
  rw [b64url, String.toList_ofList] at hlen
  rw [Json.quote, b64url, String.toList_ofList, List.length_cons, List.length_append,
    hflat _ fun c hc => Base64.mem_encode_url hc, List.length_singleton]
  omega

/-- The header of the honest payload for tier 32 is short enough if its text is. -/
lemma leaf_x402_length {price : String}
    (h : (x402Payload (leafOffer price) 32 price leafBuyer leafNonce).stringify.length ≤ 2000) :
    (x402Header (leafOffer price) [8, 32] none 32 price leafBuyer leafNonce).toList.length ≤ 16 * 1024 := by
  unfold x402Header
  rw [payload_fields, encodeX402Header]
  refine (length_b64_le _).trans ?_
  unfold x402Payload at h
  omega

lemma leaf_request_length : (Utf8.encode (String.ofList (requestOf (leafOffer "400000") 32 "400000").stringify)).length ≤
    460 := by
  rw [Utf8.encode, String.toList_ofList]
  decide +kernel

lemma leaf_request_short :
    (b64url (String.ofList (requestOf (leafOffer "400000") 32 "400000").stringify)).toList.length ≤ 16 * 1024 := by
  have hlen := leaf_request_length
  refine (length_b64url _).trans ?_
  omega

lemma leaf_data_length :
    (Json.quote (b64url "\x7b\"limit\":\"32\",\"nonce\":\"00112233445566778899aabb\"\x7d")).length ≤ 100 := by
  refine (length_quote_b64url _).trans ?_
  decide

/-- The text of the credential that answers a challenge for a leaf, in terms of what is echoed. -/
lemma leaf_credential_le (c : MppChallenge) (price nonce : String) (hdigest : c.slots.digest = "") :
    (mppCredentialJson c (mppPayload (leafOffer price) price nonce leafBuyer) none).stringify.length ≤ 700 +
      (Json.quote c.id).length + (Json.quote c.slots.realm).length + (Json.quote c.slots.method).length +
      (Json.quote c.slots.intent).length + (Json.quote c.slots.request).length + (Json.quote c.description).length +
      (Json.quote c.slots.data).length + (Json.quote c.slots.expires).length + (Json.quote price).length +
      (Json.quote nonce).length := by
  have hkeys : ∀ k ∈ ["challenge", "id", "realm", "method", "intent", "request", "description", "opaque", "expires",
      "payload", "type", "authorization", "from", "to", "value", "validAfter", "validBefore", "nonce", "signature",
      leafBuyer.validAfter, leafBuyer.validBefore], (Json.quote k).length ≤ 15 := by decide
  have haddress : (Json.quote leafBuyer.address).length = 44 := by decide
  have hpayTo : (Json.quote (leafOffer price).payTo).length = 44 := by
    have hliteral : (Json.quote "0xc8606C75E003EDA7C0a377B4708AbEC6EB7a7f02").length = 44 := by decide
    exact hliteral
  have hsignature : (('0' :: 'x' :: List.replicate 130 'a').flatMap Json.escape).length = 132 := by decide +kernel
  simp only [List.forall_mem_cons] at hkeys
  unfold Value.stringify mppCredentialJson mppEcho mppPayload Buyer.authorization Authorization.fields
  simp only [Json.bind, Json.bindFields, Json.write, Json.writeFields, hdigest, if_true, quote_signature,
    List.cons_append, List.nil_append, List.append_nil, List.length_cons, List.length_append, List.drop_succ_cons,
    List.drop_zero, List.length_nil, hsignature, haddress, hpayTo]
  omega

/-- A credential whose text is within 3000 characters is not too long. -/
lemma credential_length {c : MppChallenge} {payload : Value} {source : Option String}
    (h : (mppCredentialJson c payload source).stringify.length ≤ 3000) :
    (mppCredential c payload source).toList.length ≤ 16 * 1024 := by
  refine (length_b64url_le _).trans ?_
  omega

lemma leaf_credential_length (id : String) (nonce : String) (hid : (Json.quote id).length ≤ 60)
    (hnonce : (Json.quote nonce).length ≤ 70) :
    (mppCredential (leafChallenge id "400000") (mppPayload (leafOffer "400000") "400000" nonce leafBuyer)
      none).toList.length ≤ 16 * 1024 := by
  have hwords : ∀ k ∈ ["bootnode.onion", "evm", "charge", "leaf (tier 32)", "2026-08-17T00:10:00Z", "400000"],
      (Json.quote k).length ≤ 30 := by decide
  have hword : ∀ s ∈ [(leafChallenge id "400000").slots.realm, (leafChallenge id "400000").slots.method,
      (leafChallenge id "400000").slots.intent, (leafChallenge id "400000").description,
      (leafChallenge id "400000").slots.expires, "400000"], (Json.quote s).length ≤ 30 := hwords
  simp only [List.forall_mem_cons] at hword
  have hbytes := leaf_request_length
  have hrequest : (Json.quote (leafChallenge id "400000").slots.request).length ≤ _ := length_quote_b64url _
  have hdata : (Json.quote (leafChallenge id "400000").slots.data).length ≤ 100 := leaf_data_length
  have hid' : (Json.quote (leafChallenge id "400000").id).length ≤ 60 := hid
  have htext := leaf_credential_le (leafChallenge id "400000") "400000" nonce rfl
  exact credential_length (by omega)

/-- Both payments for tier 32 come back as they were made. -/
theorem offer_round_trip_leaf :
    (∃ r, parseX402Payment apartPlatform.parse
        (x402Header (leafOffer "400000") [8, 32] none 32 "400000" leafBuyer leafNonce) (leafOffer "400000") = .ok r ∧
      r.limit = 32 ∧ text (field r.authorization "value") = some "400000") ∧
    ∃ r, parseMppCredential apartPlatform
        (some (leafHeader "0RQnutnvoju6mkJnY2oWXMiS1mlgsCKEtr-msCr_KXg"
          "0xf512a4867f8d7a71efc8a5fa87c9aefe07959b499d8f7c3ea9bb10efa8b960bf" "400000")) "s3cret" (leafOffer "400000")
        none 1786924800000 = .ok r ∧
      r.limit = 32 ∧ text (field r.authorization "value") = some "400000" := by
  have hprices : parsePrices "8=100000,32=400000" = .ok (leafOffer "400000").tiers := by decide
  have hsold : (32, "400000") ∈ (leafOffer "400000").tiers.entries := by decide
  have hlowest : Unambiguous (leafOffer "400000").tiers 32 "400000" := by
    intro l hl
    simp only [leafOffer, List.mem_cons, Prod.mk.injEq, List.not_mem_nil, or_false] at hl
    rcases hl with ⟨-, h⟩ | ⟨rfl, -⟩
    · exact absurd h (by decide)
    · exact Nat.le_refl 32
  have hpayload : (x402Payload (leafOffer "400000") 32 "400000" leafBuyer leafNonce).stringify.length ≤ 2000 := by
    unfold Value.stringify x402Payload
    simp only [Json.bind, Json.bindFields, Json.write, Json.writeFields, quote_signature]
    decide +kernel
  obtain ⟨hx402, hmpp⟩ := offer_round_trip hprices hsold apartPlatform leafBuyer
  exact ⟨(hx402 [8, 32] none leafNonce (by decide)).mpr
      ⟨leaf_x402_length hpayload, by decide, by decide, hlowest⟩,
    (hmpp "s3cret" "" 1786924800000 "00112233445566778899aabb" _ none none 1786925400000 1786924800000
      mppChallenge_leaf (fun h => absurd rfl h) rfl (by decide)).mpr
      ⟨leaf_credential_length _ _ (by decide) (by decide), leaf_request_short, by decide,
        hlowest⟩⟩

/-- One price for two tiers: the parser takes the list, and a payment for tier 32 comes back as tier 8. -/
theorem equal_prices_confused :
    parsePrices "8=100000,32=100000" = .ok (leafOffer "100000").tiers ∧
    (∃ r, parseX402Payment equalPlatform.parse
        (x402Header (leafOffer "100000") [8, 32] none 32 "100000" leafBuyer leafNonce) (leafOffer "100000") = .ok r ∧
      r.limit = 8) ∧
    mppChallenge equalPlatform (leafOffer "100000") 32 "s3cret" "" 1786924800000 "00112233445566778899aabb" =
      some (leafChallenge "omRlR5RqLAUXsNm70T6zU-JZMQgyEDUFQaXfp0-7Jns" "100000") ∧
    ∀ r, parseMppCredential equalPlatform
        (some (leafHeader "omRlR5RqLAUXsNm70T6zU-JZMQgyEDUFQaXfp0-7Jns"
          "0x665663e895e3da43615438d2271b88ce5071532e0ac98a2e9f2b4a87b1f67900" "100000")) "s3cret" (leafOffer "100000")
        none 1786924800000 = .ok r →
      r.limit = 8 := by
  have hsold : (32, "100000") ∈ (leafOffer "100000").tiers.entries := by decide
  have htier : tierForAmount (leafOffer "100000") (some (.str "100000")) = some 8 := by decide
  have hissued : mppChallenge equalPlatform (leafOffer "100000") 32 "s3cret" "" 1786924800000
      "00112233445566778899aabb" = some (leafChallenge "omRlR5RqLAUXsNm70T6zU-JZMQgyEDUFQaXfp0-7Jns" "100000") :=
    mppChallenge_leaf
  have hpayload : (x402Payload (leafOffer "100000") 32 "100000" leafBuyer leafNonce).stringify.length ≤ 2000 := by
    unfold Value.stringify x402Payload
    simp only [Json.bind, Json.bindFields, Json.write, Json.writeFields, quote_signature]
    decide +kernel
  have hexpires : equalPlatform.dateParse (leafChallenge "omRlR5RqLAUXsNm70T6zU-JZMQgyEDUFQaXfp0-7Jns"
      "100000").slots.expires = some 1786925400000 := rfl
  refine ⟨by decide, ?_, hissued, ?_⟩
  · exact ⟨_, (parseX402Payment_honest equalPlatform.toJsonReader [8, 32] none hsold (by decide) _).mpr
      ⟨leaf_x402_length hpayload, by decide, by decide, 8, htier, rfl⟩, rfl⟩
  · intro r hr
    obtain ⟨-, -, -, l, hl, rfl⟩ := (parseMppCredential_honest (issued_of_mppChallenge hissued).toGenuine hsold
      (fun h => absurd rfl h) hexpires (by decide) none rfl r).mp hr
    exact Option.some.inj (hl.symm.trans htier)

end ShadeTree.Payments
