import Mathlib.Data.List.Sort
import ShadeTree.Lib.IsoDate
import ShadeTree.Payments.WwwAuthenticate
import ShadeTree.Payments.X402

/-!
# Payments over MPP (`mppRequest` to `parseMppCredential` in `payments/wire.mjs`)

A challenge carries a code over seven of its parameters; the client echoes the challenge with its authorization, and
the server recomputes the code over what is echoed.
-/

namespace ShadeTree.Payments

open ShadeTree.Lib ShadeTree.Lib.Text

/-- What the code takes from the runtime and from ethers: HMAC-SHA256 in base64url, keccak256 in hexadecimal, and
`Date.parse`, `none` for a text that is no date. -/
structure Platform extends JsonReader where
  hmac : String → List UInt8 → String
  keccak256 : List UInt8 → String
  dateParse : String → Option ℤ
  hmac_ne : ∀ secret input, hmac secret input ≠ ""
  keccak256_hex : ∀ input, isHexString 64 (keccak256 input) = true ∧ lower (keccak256 input) = keccak256 input

def MPP_METHOD : String := "evm"
def MPP_INTENT : String := "charge"
def PERMIT2_CANONICAL : String := "0x000000000022D473030F116dDEE9F6B43aC78BA3"

/-! ### Canonical JSON -/

/-- The order of keys in canonical JSON. -/
def keyLe (k k' : List Char) : Bool :=
  match k, k' with
  | [], _ => true
  | _ :: _, [] => false
  | c :: k, c' :: k' => decide (c.toNat < c'.toNat) || (decide (c.toNat = c'.toNat) && keyLe k k')

mutual

/-- `jcs(v)`, or what it throws. -/
def jcs : Value → Except String (List Char)
  | .null => .ok "null".toList
  | .bool b => .ok (if b then "true".toList else "false".toList)
  | .num (.fin d) => if d.toInt?.isSome then .ok d.text else .error "jcs: only integers"
  | .num (.inf _) => .error "jcs: only integers"
  | .str s => .ok (Json.quote s)
  | .arr items => (jcsItems items).map fun texts => '[' :: ([','].intercalate texts ++ [']'])
  | .obj fields => (jcsFields fields).map fun texts =>
      '\x7b' :: ([','].intercalate
        ((texts.insertionSort fun t t' => keyLe t.1.toList t'.1.toList).map fun t => Json.quote t.1 ++ ':' :: t.2) ++
        ['\x7d'])

def jcsItems : List Value → Except String (List (List Char))
  | [] => .ok []
  | item :: items => do
    let text ← jcs item
    let texts ← jcsItems items
    return text :: texts

def jcsFields : List (String × Value) → Except String (List (String × List Char))
  | [] => .ok []
  | (k, v) :: fields => do
    let text ← jcs v
    let texts ← jcsFields fields
    return (k, text) :: texts

end

/-! ### The challenge -/

def mppRequest (offer : Offer) (limit : ℕ) : Value := .obj [
  ("amount", ((priceOf offer limit).map Json.str).getD .null),
  ("currency", .str offer.asset),
  ("recipient", .str offer.payTo),
  ("description", .str s!"{offer.description} (tier {limit})"),
  ("externalId", .str s!"limit={limit}"),
  ("methodDetails", .obj [
    ("chainId", number offer.chainId),
    ("permit2Address", .str PERMIT2_CANONICAL),
    ("credentialTypes", .arr [.str "authorization"]),
    ("decimals", number offer.decimals),
    ("eip712Domain", .obj [("name", .str offer.assetName), ("version", .str offer.assetVersion)])])]

/-- The seven slots that the code of a challenge covers; an optional one that is absent is empty. -/
structure Slots where
  realm : String
  method : String
  intent : String
  request : String
  expires : String
  digest : String
  data : String
  deriving DecidableEq

def Slots.input (slots : Slots) : String := String.ofList (['|'].intercalate
  ([slots.realm, slots.method, slots.intent, slots.request, slots.expires, slots.digest, slots.data].map String.toList))

def mppChallengeId (R : Platform) (secret : String) (slots : Slots) : String :=
  R.hmac secret (Utf8.encode slots.input)

def mppNonce (R : Platform) (id realm : String) : String := R.keccak256 (Utf8.encode id ++ Utf8.encode realm)

/-- `rfc3339(ms)`; `none` if the time is out of range. -/
def rfc3339 (ms : ℤ) : Option String :=
  (IsoDate.toISOString ms).map fun text => String.ofList (text.take (text.length - 5) ++ ['Z'])

/-- The parameters of a challenge; `digest` is empty if there is none. -/
structure MppChallenge where
  id : String
  slots : Slots
  description : String

/-- `mppChallenge(offer, limit, secret, { digest, nowMs })` with the random bytes it draws; `none` if it throws. -/
def mppChallenge (R : Platform) (offer : Offer) (limit : ℕ) (secret digest : String) (nowMs : ℤ) (random : String) :
    Option MppChallenge := do
  let request ← (jcs (mppRequest offer limit)).toOption
  let expires ← rfc3339 (nowMs + offer.maxTimeoutSeconds * 1000)
  let data ← (jcs (.obj [("limit", .str (toString limit)), ("nonce", .str random)])).toOption
  let slots : Slots := ⟨offer.realm, MPP_METHOD, MPP_INTENT, b64url (String.ofList request), expires, digest,
    b64url (String.ofList data)⟩
  return ⟨mppChallengeId R secret slots, slots, s!"{offer.description} (tier {limit})"⟩

/-! ### The credential -/

/-- What the client echoes of a challenge: the parameters that are defined. -/
def mppEcho (challenge : MppChallenge) : Value := .obj (
  [("id", .str challenge.id),
    ("realm", .str challenge.slots.realm),
    ("method", .str challenge.slots.method),
    ("intent", .str challenge.slots.intent),
    ("request", .str challenge.slots.request),
    ("description", .str challenge.description),
    ("opaque", .str challenge.slots.data)] ++
  (if challenge.slots.digest = "" then [] else [("digest", .str challenge.slots.digest)]) ++
  [("expires", .str challenge.slots.expires)])

/-- The credential of the client, before it is encoded. -/
def mppCredentialJson (challenge : MppChallenge) (payload : Value) (source : Option String) : Value := .obj (
  [("challenge", mppEcho challenge), ("payload", payload)] ++
  match source with
  | some s => if s = "" then [] else [("source", .str s)]
  | none => [])

def mppCredential (challenge : MppChallenge) (payload : Value) (source : Option String) : String :=
  b64url (String.ofList (mppCredentialJson challenge payload source).stringify)

/-- Why a credential is refused: a problem code with its detail, or a value that cannot be made a string. -/
inductive Refusal where
  | bad (reason detail : String)
  | thrown
  deriving DecidableEq, Repr

/-- What an accepted credential comes to. -/
structure MppPayment where
  limit : ℕ
  challenge : Option Value
  request : Value
  authorization : Option Value
  signature : String
  source : Option String

/-- The group of `^Payment[ \t]+([A-Za-z0-9_-]+)$`, matched against the header without white space at its ends. -/
def credentialText (header : String) : Option String :=
  let s := trim header.toList
  if "Payment".toList <+: s then
    let rest := s.drop 7
    let group := rest.dropWhile fun c => decide (c = ' ') || decide (c = '\t')
    if decide (group.length < rest.length) && isUrlText group then some (String.ofList group) else none
  else none

/-- `String(v || "")`; `none` if it throws. -/
def slotText (v : Option Value) : Option String :=
  match v with
  | some v => if v.truthy then v.toText.map String.ofList else some ""
  | none => some ""

/-- The slots of an echoed challenge whose five required parameters are strings. -/
def echoedSlots (ch : Option Value) : Option Slots := do
  let realm ← text (field ch "realm")
  let method ← text (field ch "method")
  let intent ← text (field ch "intent")
  let request ← text (field ch "request")
  let expires ← slotText (field ch "expires")
  let digest ← slotText (field ch "digest")
  let data ← slotText (field ch "opaque")
  return ⟨realm, method, intent, request, expires, digest, data⟩

/-- `v !== undefined && v !== null && v !== false && ...`: the value if it is truthy. -/
def truthyOf (v : Option Value) : Option Value := v.filter Value.truthy

/-- The authorization that is taken out of a payload. -/
def authorizationOf (pl : Option Value) : Option Value := some (.obj (
  optionalField "from" (field pl "from") ++ optionalField "to" (field pl "to") ++
  optionalField "value" (field pl "value") ++ optionalField "validAfter" (field pl "validAfter") ++
  optionalField "validBefore" (field pl "validBefore") ++ optionalField "nonce" (field pl "nonce")))

def parseMppCredential (R : Platform) (authorizationHeader : Option String) (secret : String) (offer : Offer)
    (bodyDigest : Option String) (nowMs : ℤ) : Except Refusal MppPayment :=
  match authorizationHeader with
  | none => .error (.bad "malformed-credential" "missing Authorization")
  | some header =>
  match credentialText header with
  | none => .error (.bad "malformed-credential" "Authorization must be `Payment <base64url>`")
  | some group =>
  match (b64decode true group).bind (jsonParseSafe R.parse) with
  | none => .error (.bad "malformed-credential" "credential is not base64url JSON")
  | some cred =>
  let ch := cred.get "challenge"
  if isObject ch = false then .error (.bad "malformed-credential" "credential.challenge missing")
  else
  match ["id", "realm", "method", "intent", "request"].find? fun k => (text (field ch k)).getD "" = "" with
  | some k => .error (.bad "malformed-credential" s!"challenge.{k} missing")
  | none =>
  if text (field ch "method") ≠ some MPP_METHOD ∨ text (field ch "intent") ≠ some MPP_INTENT then
    .error (.bad "method-unsupported" s!"only {MPP_METHOD}/{MPP_INTENT}")
  else if text (field ch "realm") ≠ some offer.realm then .error (.bad "invalid-challenge" "realm mismatch")
  else
  match echoedSlots ch with
  | none => .error .thrown
  | some slots =>
  if text (field ch "id") ≠ some (mppChallengeId R secret slots) then
    .error (.bad "invalid-challenge" "challenge id does not verify")
  else
  match (if (truthyOf (field ch "expires")).isSome then R.dateParse slots.expires else none) with
  | none => .error (.bad "invalid-challenge" "expires missing")
  | some expires =>
  if expires ≤ nowMs then .error (.bad "payment-expired" "challenge expired")
  else if (truthyOf (field ch "digest")).isSome ∧
      (bodyDigest.getD "" = "" ∨ text (field ch "digest") ≠ bodyDigest) then
    .error (.bad "invalid-challenge" "request body digest does not match the challenge")
  else
  match (b64decode true slots.request).bind (jsonParseSafe R.parse) with
  | none => .error (.bad "invalid-challenge" "request is not base64url JSON")
  | some req =>
  match tierForAmount offer (req.get "amount") with
  | none => .error (.bad "invalid-challenge" "challenge no longer matches the current offer")
  | some limit =>
  if sameAddress (req.get "currency") (some (.str offer.asset)) = false ∨
      sameAddress (req.get "recipient") (some (.str offer.payTo)) = false then
    .error (.bad "invalid-challenge" "challenge no longer matches the current offer")
  else
  let pl := cred.get "payload"
  if isObject pl = false then .error (.bad "malformed-credential" "payload missing")
  else if text (field pl "type") ≠ some "authorization" then
    .error (.bad "verification-failed" ("unsupported payload type " ++
      ((field pl "type").map fun t => String.ofList t.stringify).getD "undefined" ++
      " (this registrar accepts type=authorization only)"))
  else
  let auth := authorizationOf pl
  match checkAuthorizationShape auth with
  | some shapeErr => .error (.bad "malformed-credential" shapeErr)
  | none =>
  match text (field pl "signature") with
  | none => .error (.bad "malformed-credential" "signature must be 65 bytes hex")
  | some signature =>
  if isSignature (field pl "signature") = false then
    .error (.bad "malformed-credential" "signature must be 65 bytes hex")
  else if sameAddress (field auth "to") (req.get "recipient") = false then
    .error (.bad "verification-failed" "to != challenge recipient")
  else if text (field auth "value") ≠ text (req.get "amount") then
    .error (.bad "verification-failed" "value != challenge amount")
  else if (text (field auth "nonce")).map lower ≠
      (text (field ch "id")).map fun id => mppNonce R id slots.realm then
    .error (.bad "verification-failed" "nonce != keccak256(id ‖ realm)")
  else .ok ⟨limit, ch, req, auth, signature, text (cred.get "source")⟩

end ShadeTree.Payments
