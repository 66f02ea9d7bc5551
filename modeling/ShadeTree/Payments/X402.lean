import ShadeTree.Payments.Offer

/-!
# Payments over x402 (`x402Requirements` to `parseX402Payment` in `payments/wire.mjs`)

The server takes the tier from the amount that is paid: the limit that the payload names is not looked at.
-/

namespace ShadeTree.Payments

open ShadeTree.Lib

def x402Requirements (offer : Offer) (limit : ℕ) : Value := .obj [
  ("scheme", .str "exact"),
  ("network", .str (caip2 offer.chainId)),
  ("amount", ((priceOf offer limit).map Json.str).getD .null),
  ("asset", .str offer.asset),
  ("payTo", .str offer.payTo),
  ("maxTimeoutSeconds", number offer.maxTimeoutSeconds),
  ("extra", .obj [
    ("name", .str offer.assetName),
    ("version", .str offer.assetVersion),
    ("assetTransferMethod", .str "eip3009"),
    ("limit", number limit)])]

def x402PaymentRequired (offer : Offer) (limits : List ℕ) (error : Option String) : Value := .obj (
  [("x402Version", number 2)] ++
  (match error with
    | some e => if e = "" then [] else [("error", .str e)]
    | none => []) ++
  [("resource", .obj [
      ("url", .str offer.resourceUrl),
      ("description", .str offer.description),
      ("mimeType", .str "application/json")]),
    ("accepts", .arr (limits.map (x402Requirements offer)))])

def encodeX402Header (obj : Value) : String := b64 (String.ofList obj.stringify)

def decodeX402Header (parse : String → Option Value) (h : String) : Option Value :=
  (b64decode false h).bind (jsonParseSafe parse)

/-- A field that is dropped if it is undefined. -/
def optionalField (k : String) (v : Option Value) : List (String × Value) := (v.map fun v => (k, v)).toList

def x402PaymentPayload (paymentRequired accepted authorization : Value) (signature : String) : Value := .obj (
  [("x402Version", number 2)] ++ optionalField "resource" (paymentRequired.get "resource") ++
  [("accepted", accepted),
    ("payload", .obj [("signature", .str signature), ("authorization", authorization)])])

/-- What an accepted payment comes to. -/
structure X402Payment where
  limit : ℕ
  accepted : Option Value
  authorization : Option Value
  signature : String
  resource : Option Value

def isObject : Option Value → Bool
  | some (.obj _) | some (.arr _) => true
  | _ => false

def text (v : Option Value) : Option String := v.bind Value.asString

def isSignature : Option Value → Bool := isStringWith (isHexString 130)

def parseX402Payment (parse : String → Option Value) (header : String) (offer : Offer) : Except String X402Payment :=
  match decodeX402Header parse header with
  | none => .error "invalid_payment_payload"
  | some p =>
    if (p.get "x402Version").bind Value.asInteger ≠ some 2 then .error "invalid_x402_version"
    else
      let a := p.get "accepted"
      if isObject a = false then .error "invalid_payment_requirements"
      else if text (field a "scheme") ≠ some "exact" then .error "invalid_scheme"
      else if chainIdOfCaip2 (field a "network") ≠ some offer.chainId then .error "invalid_network"
      else if sameAddress (field a "asset") (some (.str offer.asset)) = false then
        .error "invalid_exact_evm_payload_asset"
      else if sameAddress (field a "payTo") (some (.str offer.payTo)) = false then
        .error "invalid_exact_evm_payload_recipient_mismatch"
      else if isUintString (field a "amount") = false then .error "invalid_payment_requirements"
      else
        match tierForAmount offer (field a "amount") with
        | none => .error "invalid_exact_evm_payload_authorization_value_mismatch"
        | some limit =>
          let pl := p.get "payload"
          if isObject pl = false then .error "invalid_payment_payload"
          else
            let auth := field pl "authorization"
            if checkAuthorizationShape auth ≠ none then .error "invalid_exact_evm_payload_authorization"
            else
              match text (field pl "signature") with
              | none => .error "invalid_exact_evm_payload_signature"
              | some signature =>
                if isSignature (field pl "signature") = false then .error "invalid_exact_evm_payload_signature"
                else if sameAddress (field auth "to") (some (.str offer.payTo)) = false then
                  .error "invalid_exact_evm_payload_recipient_mismatch"
                else if text (field auth "value") ≠ text (field a "amount") then
                  .error "invalid_exact_evm_payload_authorization_value_mismatch"
                else .ok ⟨limit, a, auth, signature, p.get "resource"⟩

/-! ### A buyer -/

/-- An authorization to transfer. -/
structure Authorization where
  payer : String
  payee : String
  value : String
  validAfter : String
  validBefore : String
  nonce : String

def Authorization.fields (auth : Authorization) : List (String × Value) := [
  ("from", .str auth.payer),
  ("to", .str auth.payee),
  ("value", .str auth.value),
  ("validAfter", .str auth.validAfter),
  ("validBefore", .str auth.validBefore),
  ("nonce", .str auth.nonce)]

/-- What a buyer adds to an offer: its address, the time for which it authorizes, and its signature. -/
structure Buyer where
  address : String
  validAfter : String
  validBefore : String
  signature : String
  address_hex : isHexString 40 address = true
  validAfter_uint : isUint validAfter = true
  validBefore_uint : isUint validBefore = true
  signature_hex : isHexString 130 signature = true

/-- What an honest buyer authorizes for a tier. -/
def Buyer.authorization (buyer : Buyer) (offer : Offer) (price nonce : String) : Authorization :=
  ⟨buyer.address, offer.payTo, price, buyer.validAfter, buyer.validBefore, nonce⟩

/-- The header an honest buyer sends for a tier. -/
def x402Header (offer : Offer) (limits : List ℕ) (error : Option String) (limit : ℕ) (price : String) (buyer : Buyer)
    (nonce : String) : String :=
  encodeX402Header (x402PaymentPayload (x402PaymentRequired offer limits error) (x402Requirements offer limit)
    (.obj (buyer.authorization offer price nonce).fields) buyer.signature)

/-! ### The round trip of the encodings -/

lemma b64decode_b64 {s : String} (hne : s ≠ "") :
    b64decode false (b64 s) = if 16 * 1024 < (b64 s).toList.length then none else some s := by
  have hbytes : Utf8.encode s ≠ [] := by
    intro hnil
    have hdec := Utf8.decode_encode s
    rw [hnil] at hdec
    exact hne hdec.symm
  obtain ⟨body, n, htext, hbody, hn, hbne⟩ := Base64.encode_standard (Utf8.encode s)
  have hpat : isStandardText (Base64.encode false (Utf8.encode s)) = true := by
    have htake : (body ++ List.replicate n '=').takeWhile (· ≠ '=') = body := by
      rw [List.takeWhile_append_of_pos fun c hc => decide_eq_true (Base64.ne_pad (hbody c hc))]
      cases n <;> simp [List.replicate_succ]
    have hdrop : (body ++ List.replicate n '=').dropWhile (· ≠ '=') = List.replicate n '=' := by
      rw [List.dropWhile_append_of_pos fun c hc => decide_eq_true (Base64.ne_pad (hbody c hc))]
      cases n <;> simp [List.replicate_succ]
    rw [htext]
    unfold isStandardText
    simp only [htake, hdrop]
    simp [hbne hbytes, hn]
    exact hbody
  have hpos : (Base64.encode false (Utf8.encode s)).length ≠ 0 := by
    rw [htext, List.length_append]
    have := List.length_pos_iff.mpr (hbne hbytes)
    omega
  unfold b64decode b64
  rw [String.toList_ofList]
  by_cases hlen : 16 * 1024 < (Base64.encode false (Utf8.encode s)).length
  · rw [if_pos (.inr hlen), if_pos hlen]
  · rw [if_neg (not_or.mpr ⟨hpos, hlen⟩), if_neg hlen, if_neg Bool.false_ne_true, if_pos hpat,
      Base64.decode_encode, Utf8.decode_encode]

lemma b64decode_b64url {s : String} (hne : s ≠ "") :
    b64decode true (b64url s) = if 16 * 1024 < (b64url s).toList.length then none else some s := by
  have hbytes : Utf8.encode s ≠ [] := by
    intro hnil
    have hdec := Utf8.decode_encode s
    rw [hnil] at hdec
    exact hne hdec.symm
  have htext := Base64.encode_url_ne_nil hbytes
  have hpat : isUrlText (Base64.encode true (Utf8.encode s)) = true := by
    unfold isUrlText
    simp only [htext, ne_eq, not_false_eq_true, decide_true, Bool.true_and, List.all_eq_true, decide_eq_true_eq]
    exact fun c hc => Base64.mem_encode_url hc
  unfold b64decode b64url
  rw [String.toList_ofList]
  by_cases hlen : 16 * 1024 < (Base64.encode true (Utf8.encode s)).length
  · rw [if_pos (.inr hlen), if_pos hlen]
  · have hpos : (Base64.encode true (Utf8.encode s)).length ≠ 0 := fun h => htext (List.length_eq_zero_iff.mp h)
    rw [if_neg (not_or.mpr ⟨hpos, hlen⟩), if_neg hlen, if_pos rfl, if_pos hpat, Base64.decode_encode,
      Utf8.decode_encode]

lemma stringify_obj_ne (fields : List (String × Value)) : String.ofList (Value.stringify (.obj fields)) ≠ "" := by
  intro h
  have hlist := congrArg String.toList h
  rw [String.toList_ofList] at hlist
  cases hlist

lemma jsonParseSafe_stringify (R : JsonReader) (fields : List (String × Value)) :
    jsonParseSafe R.parse (String.ofList (Value.stringify (.obj fields))) = some (Value.wire (.obj fields)) := by
  unfold jsonParseSafe
  rw [R.parse_stringify, Value.wire_obj]

lemma decodeX402Header_encode (R : JsonReader) (fields : List (String × Value)) :
    decodeX402Header R.parse (encodeX402Header (.obj fields)) =
      if 16 * 1024 < (encodeX402Header (.obj fields)).toList.length then none else some (Value.wire (.obj fields)) := by
  unfold decodeX402Header encodeX402Header
  rw [b64decode_b64 (stringify_obj_ne fields)]
  split
  · rfl
  · exact jsonParseSafe_stringify R fields

/-! ### An honest payment -/

/-- The description of the resource that is paid for. -/
def resourceOf (offer : Offer) : Value := .obj [
  ("url", .str offer.resourceUrl),
  ("description", .str offer.description),
  ("mimeType", .str "application/json")]

lemma get_resource (offer : Offer) (limits : List ℕ) (error : Option String) :
    (x402PaymentRequired offer limits error).get "resource" = some (resourceOf offer) := by
  unfold x402PaymentRequired
  rw [Json.get_append]
  rfl

/-- The payload of an honest buyer, with the fields of its accepted requirements and of its authorization. -/
lemma payload_fields (offer : Offer) (limits : List ℕ) (error : Option String) (accepted auth : Value)
    (signature : String) :
    x402PaymentPayload (x402PaymentRequired offer limits error) accepted auth signature = .obj [
      ("x402Version", number 2), ("resource", resourceOf offer), ("accepted", accepted),
      ("payload", .obj [("signature", .str signature), ("authorization", auth)])] := by
  unfold x402PaymentPayload
  rw [get_resource]
  rfl

variable {offer : Offer} {limit : ℕ} {price nonce : String} {buyer : Buyer}

lemma wire_number (n : ℤ) : (number n).wire = number n := rfl

lemma wire_fields (auth : Authorization) : Value.wire (.obj auth.fields) = .obj auth.fields := rfl

lemma wellShaped_authorization (hnonce : isHexString 64 nonce = true) :
    checkAuthorizationShape (some (.obj (buyer.authorization offer price nonce).fields)) = none ↔ isUint price = true := by
  rw [checkAuthorizationShape_iff]
  exact ⟨fun h => h.value_uint, fun h => ⟨buyer.address_hex, offer.payTo_address, h, buyer.validAfter_uint,
    buyer.validBefore_uint, hnonce⟩⟩

/-- What is decoded of an honest payload. -/
def x402Payload (offer : Offer) (limit : ℕ) (price : String) (buyer : Buyer) (nonce : String) : Value := .obj [
  ("x402Version", number 2),
  ("resource", resourceOf offer),
  ("accepted", x402Requirements offer limit),
  ("payload", .obj [
    ("signature", .str buyer.signature),
    ("authorization", .obj (buyer.authorization offer price nonce).fields)])]

lemma decode_honest (R : JsonReader) (limits : List ℕ) (error : Option String)
    (hsold : (limit, price) ∈ offer.tiers.entries) :
    decodeX402Header R.parse (x402Header offer limits error limit price buyer nonce) =
      if 16 * 1024 < (x402Header offer limits error limit price buyer nonce).toList.length then none
      else some (x402Payload offer limit price buyer nonce) := by
  have hreq : (x402Requirements offer limit).wire = x402Requirements offer limit := by
    unfold x402Requirements priceOf
    rw [Tiers.get_of_mem hsold]
    rfl
  have hwire : (x402Payload offer limit price buyer nonce).wire = x402Payload offer limit price buyer nonce := by
    unfold x402Payload
    rw [Value.wire_obj]
    simp only [List.map_cons, List.map_nil, hreq]
    rfl
  unfold x402Header
  rw [payload_fields]
  exact (decodeX402Header_encode R _).trans (by rw [← hwire]; rfl)

/-- What the server makes of an honest payload. -/
theorem parseX402Payment_honest (R : JsonReader) (limits : List ℕ) (error : Option String)
    (hsold : (limit, price) ∈ offer.tiers.entries) (hnonce : isHexString 64 nonce = true) (r : X402Payment) :
    parseX402Payment R.parse (x402Header offer limits error limit price buyer nonce) offer = .ok r ↔
      (x402Header offer limits error limit price buyer nonce).toList.length ≤ 16 * 1024 ∧
      chainIdOfCaip2 (some (.str (caip2 offer.chainId))) = some offer.chainId ∧ isUint price = true ∧
      ∃ l, tierForAmount offer (some (.str price)) = some l ∧
        r = ⟨l, some (x402Requirements offer limit), some (.obj (buyer.authorization offer price nonce).fields),
          buyer.signature, some (resourceOf offer)⟩ := by
  unfold parseX402Payment
  rw [decode_honest R limits error hsold]
  by_cases hlen : 16 * 1024 < (x402Header offer limits error limit price buyer nonce).toList.length
  · rw [if_pos hlen]
    exact ⟨fun h => (by cases h), fun h => absurd h.1 (by omega)⟩
  rw [if_neg hlen]
  have hamount : field (some (x402Requirements offer limit)) "amount" = some (.str price) := by
    unfold x402Requirements priceOf
    rw [Tiers.get_of_mem hsold]
    rfl
  have hversion : ((x402Payload offer limit price buyer nonce).get "x402Version").bind Value.asInteger = some 2 := rfl
  have haccepted : (x402Payload offer limit price buyer nonce).get "accepted" =
      some (x402Requirements offer limit) := rfl
  have hresource : (x402Payload offer limit price buyer nonce).get "resource" = some (resourceOf offer) := rfl
  have hpayload : (x402Payload offer limit price buyer nonce).get "payload" = some (.obj [
    ("signature", .str buyer.signature),
    ("authorization", .obj (buyer.authorization offer price nonce).fields)]) := rfl
  have hobj : isObject (some (x402Requirements offer limit)) = true := rfl
  have hscheme : text (field (some (x402Requirements offer limit)) "scheme") = some "exact" := rfl
  have hnetwork : field (some (x402Requirements offer limit)) "network" = some (.str (caip2 offer.chainId)) := rfl
  have hasset : sameAddress (field (some (x402Requirements offer limit)) "asset") (some (.str offer.asset)) = true :=
    sameAddress_self offer.asset_address
  have hpayTo : sameAddress (field (some (x402Requirements offer limit)) "payTo") (some (.str offer.payTo)) = true :=
    sameAddress_self offer.payTo_address
  have hauth : field (some (.obj [("signature", .str buyer.signature),
      ("authorization", .obj (buyer.authorization offer price nonce).fields)])) "authorization" =
      some (.obj (buyer.authorization offer price nonce).fields) := rfl
  have hsignature : field (some (.obj [("signature", .str buyer.signature),
      ("authorization", .obj (buyer.authorization offer price nonce).fields)])) "signature" =
      some (.str buyer.signature) := rfl
  have hto : sameAddress (field (some (.obj (buyer.authorization offer price nonce).fields)) "to")
      (some (.str offer.payTo)) = true := sameAddress_self offer.payTo_address
  have hvalue : field (some (.obj (buyer.authorization offer price nonce).fields)) "value" = some (.str price) := rfl
  obtain ⟨l, hl, -⟩ := tierForAmount_price hsold
  have hplobj : ∀ fields, isObject (some (.obj fields)) = true := fun _ => rfl
  have htext : text (some (.str buyer.signature)) = some buyer.signature := rfl
  have hsig : isSignature (some (.str buyer.signature)) = true := buyer.signature_hex
  have huint : isUintString (some (.str price)) = isUint price := rfl
  simp only [hversion, haccepted, hobj, hscheme, hnetwork, hasset, hpayTo, hamount, hl, hpayload, hplobj, hauth,
    hsignature, htext, hsig, huint, hto, hvalue, hresource, ne_eq, not_true_eq_false, if_false, Bool.true_eq_false]
  by_cases hchain : chainIdOfCaip2 (some (.str (caip2 offer.chainId))) = some offer.chainId
  · rw [if_neg (not_not.mpr hchain)]
    by_cases hprice : isUint price = true
    · rw [if_neg (by rw [hprice]; exact Bool.true_eq_false ▸ id),
        if_neg (not_not.mpr ((wellShaped_authorization hnonce).mpr hprice))]
      constructor
      · intro h
        exact ⟨by omega, hchain, hprice, l, rfl, (Except.ok.inj h).symm⟩
      · rintro ⟨-, -, -, l', hl', rfl⟩
        rw [Option.some.inj hl']
    · rw [if_pos (Bool.eq_false_iff.mpr hprice)]
      exact ⟨fun h => (by cases h), fun h => absurd h.2.2.1 hprice⟩
  · rw [if_pos hchain]
    exact ⟨fun h => (by cases h), fun h => absurd h.2.1 hchain⟩

/-- The tier of an honest payment is recovered exactly if no lower tier has its price, as far as the payment can be
sent and read at all. -/
theorem x402_recovers (R : JsonReader) (limits : List ℕ) (error : Option String)
    (hsold : (limit, price) ∈ offer.tiers.entries) (hpositive : offer.tiers.Positive)
    (hnonce : isHexString 64 nonce = true) :
    (∃ r, parseX402Payment R.parse (x402Header offer limits error limit price buyer nonce) offer = .ok r ∧
      r.limit = limit ∧ text (field r.authorization "value") = some price) ↔
      (x402Header offer limits error limit price buyer nonce).toList.length ≤ 16 * 1024 ∧
      chainIdOfCaip2 (some (.str (caip2 offer.chainId))) = some offer.chainId ∧
      numberOf price.toList < 2 ^ 256 ∧ Unambiguous offer.tiers limit price := by
  obtain ⟨l, hl, -, hlowest⟩ := tierForAmount_price hsold
  have hprice := isUint_of_isPositive (hpositive _ hsold)
  constructor
  · rintro ⟨r, hr, hlimit, -⟩
    obtain ⟨hlen, hchain, huint, l', hl', rfl⟩ := (parseX402Payment_honest R limits error hsold hnonce r).mp hr
    obtain rfl : l = l' := Option.some.inj (hl.symm.trans hl')
    exact ⟨hlen, hchain, hprice.mp huint, hlowest.mp hlimit⟩
  · rintro ⟨hlen, hchain, huint, hun⟩
    exact ⟨_, (parseX402Payment_honest R limits error hsold hnonce _).mpr
      ⟨hlen, hchain, hprice.mpr huint, l, hl, rfl⟩, hlowest.mpr hun, rfl⟩

end ShadeTree.Payments
