import Mathlib.Data.List.Sort
import ShadeTree.Lib.IsoParse
import ShadeTree.Lib.OrderedMap
import ShadeTree.Lib.Script

/-!
# The public snapshot of the grove (`lib/public-grove.mjs`, `collectPublicGrove` in `scripts/grove-snapshot.mjs`)

The collector makes of a verified directory a count, and carries on the history of counts of the snapshot before if
that one bears its own signature.  What it reads as the snapshot before is a public file: anybody may have written it.
The site checks every field of a snapshot and its signature before it shows it (`docs/post/api/_grove-contract.mjs`).

The second schema adds a section on what was relayed and one on the chain.  What their modules make of them is a
parameter.  An option that is `null` is `none` here.
-/

namespace ShadeTree.Grove.Snapshot

open ShadeTree.Lib ShadeTree.Lib.IsoDate

/-! ### Reading a value that may be anything -/

/-- `v?.key`. -/
def optionalGet (key : String) (v : Option Value) : Option Value := v.bind (Json.get key)

/-- `v.key`, or `none` when it throws. -/
def member (key : String) : Option Value → Option (Option Value)
  | none | some .null => none
  | some v => some (v.get key)

/-- The fields of `{ key: v.key, … }` that are written, or `none` when it throws. -/
def pick (keys : List String) : Option Value → Option (List (String × Value))
  | none | some .null => none
  | some v => some (keys.filterMap fun key => (v.get key).map fun x => (key, x))

/-- `v === text`. -/
def isText (text : String) (v : Option Value) : Bool := v.bind Value.asString == some text

/-- `v === n`. -/
def isNumber (n : ℤ) (v : Option Value) : Bool := v.bind Value.asInteger == some n

/-- `v === b`. -/
def isBool (b : Bool) : Option Value → Bool
  | some (.bool b') => b' == b
  | _ => false

def number (n : ℤ) : Value := .num (.fin (.ofInt n))

/-- `safeCount(value)`. -/
def safeCount (v : Option Value) : Option ℕ :=
  match v.bind Value.asInteger with
  | some n => if 0 ≤ n ∧ n ≤ 100000 then some n.toNat else none
  | none => none

/-- `new Date(ms).toISOString()`. -/
def iso (ms : ℤ) : Option String := (toISOString ms).map String.ofList

/-! ### The history -/

structure Sample where
  at_ : String
  announced : ℕ
  deriving DecidableEq

def Sample.value (s : Sample) : Value := .obj [("at", .str s.at_), ("announced", number s.announced)]

def GROVE_HISTORY_CAP : ℕ := 97

def HOUR_MS : ℤ := 60 * 60 * 1000

def MINUTE_MS : ℤ := 60 * 1000

/-- `Date.parse`, where it gives a number. -/
abbrev DateParse := Option Value → Option ℤ

section History

variable (dateParse : DateParse)

/-- The time of a sample. -/
def timeOf (s : Sample) : ℤ := (dateParse (some (.str s.at_))).getD 0

/-- One sample of a history that is not trusted. -/
def readSample (nowMs : ℤ) (raw : Value) : Option Sample := do
  let atMs ← dateParse (raw.get "at")
  let announced ← safeCount (raw.get "announced")
  if nowMs - 48 * HOUR_MS ≤ atMs ∧ atMs ≤ nowMs + 5 * MINUTE_MS then
    let at_ ← iso atMs
    some ⟨at_, announced⟩
  else none

/-- The samples that can be read: of one time the last, in the order of the times, and no more than `cap`. -/
def scrubSamples (nowMs : ℤ) (cap : ℕ) (raws : List Value) : List Sample :=
  let byTime := OrderedMap.ofList ((raws.filterMap (readSample dateParse nowMs)).map fun s => (s.at_, s))
  let sorted := (byTime.entries.map Prod.snd).mergeSort fun a b => timeOf dateParse a ≤ timeOf dateParse b
  sorted.drop (sorted.length - max 1 cap)

/-- `scrubGroveHistory(previous, { now, cap })`. -/
def scrubGroveHistory (previous : Option Value) (nowMs : ℤ) (cap : ℕ) : List Sample :=
  match optionalGet "history" previous with
  | some (.arr raws) => scrubSamples dateParse nowMs cap raws
  | _ => []

/-- The milliseconds that count, each sample carried to the next one and no further than the gap. -/
def nodeMs (start last : ℤ) : List Sample → ℤ
  | sample :: next :: rest =>
    let begin_ := max start (timeOf dateParse sample)
    let to_ := min last (min (timeOf dateParse next) (timeOf dateParse sample + 30 * MINUTE_MS))
    (if begin_ < to_ then sample.announced * (to_ - begin_) else 0) + nodeMs start last (next :: rest)
  | _ => 0

/-- `aggregateAnnouncedNodeHours(history, { now })`. -/
def aggregateAnnouncedNodeHours (history : List Sample) (nowMs : ℤ) : Option ℤ :=
  if history.length < 2 then none
  else some (nodeMs dateParse (nowMs - 24 * HOUR_MS) nowMs history / HOUR_MS)

end History

/-! ### What is signed -/

def GROVE_SCHEMA : String := "shade-tree-public-grove-v1"

def GROVE_SCHEMA_V2 : String := "shade-tree-public-grove-v2"

def GROVE_ATTESTATION_KEY_ID : String := "grove-2026-08"

/-- What the second schema takes from elsewhere: the section that is made of a signed aggregate, the sections as they
are signed, each `none` when it throws, and whether they are valid at a time. -/
structure Sections where
  publicRelayFromAggregate : Value → Option Value → Option Value
  relayPayload : Option Value → Option Value
  onchainSigningPayload : Value → Option Value
  validPublicRelay : Value → ℤ → Bool
  validPublicOnchainActivity : Value → ℤ → Bool

/-- The fields `source`, `nodes`, `growth` and `privacy` as they are signed. -/
def sourceKeys : List String := ["bootnodeReachable", "directoryVerified", "definition", "cadenceMinutes"]

def growthKeys : List String := ["windowHours", "announcedNodeHours", "samples"]

def privacyKeys : List String :=
  ["identities", "locations", "traffic", "stablePositions", "futureSharedStatsMinReportingNodes"]

/-- `history.map(…)`, or `none` when it throws. -/
def signedHistory : Option Value → Option (List Value)
  | some (.arr items) => items.mapM fun item => (pick ["at", "announced"] (some item)).map .obj
  | _ => none

/-- The payload of the first schema, which is all that the reader of the site signs. -/
def signingFields (snapshot : Option Value) : Option (List (String × Value)) := do
  let head ← pick ["schema", "network", "observedAt"] snapshot
  let source ← pick sourceKeys (← member "source" snapshot)
  let nodes ← pick ["announced"] (← member "nodes" snapshot)
  let growth ← pick growthKeys (← member "growth" snapshot)
  let privacy ← pick privacyKeys (← member "privacy" snapshot)
  let history ← signedHistory (← member "history" snapshot)
  some (head ++ [("source", .obj source), ("nodes", .obj nodes), ("growth", .obj growth), ("privacy", .obj privacy),
    ("history", .arr history)])

/-- The sections that the second schema appends. -/
def sectionFields (X : Sections) (snapshot : Option Value) : Option (List (String × Value)) := do
  let relay ← X.relayPayload (optionalGet "relay" snapshot)
  match optionalGet "onchain" snapshot with
  | none => some [("relay", relay)]
  | some onchain => do
    let onchain ← X.onchainSigningPayload onchain
    some [("relay", relay), ("onchain", onchain)]

/-- `groveSigningPayload(snapshot)`, or `none` when it throws. -/
def groveSigningPayload (X : Sections) (snapshot : Option Value) : Option Value := do
  let fields ← signingFields snapshot
  if isText GROVE_SCHEMA_V2 (optionalGet "schema" snapshot) then
    let sections ← sectionFields X snapshot
    some (.obj (fields ++ sections))
  else some (.obj fields)

/-- The test `/^[A-Za-z0-9+/]{86}==$/`. -/
def signatureShape (signature : String) : Bool :=
  let cs := signature.toList
  decide (cs.length = 88) && (cs.take 86).all (fun c => c.isAlphanum || c == '+' || c == '/') &&
    cs.drop 86 == ['=', '=']

/-- A pair of Ed25519 keys; a signature is its base64 text. -/
structure GroveKey where
  sign : List Char → String
  verify : List Char → String → Bool
  sign_shape : ∀ text, signatureShape (sign text) = true
  verify_sign : ∀ text, verify text (sign text) = true

/-- `attestPublicGroveSnapshot(snapshot, privateKeyPem)` of a snapshot with the given fields. -/
def attest (X : Sections) (K : GroveKey) (fields : List (String × Value)) : Option Value := do
  let payload ← groveSigningPayload X (some (.obj fields))
  some (.obj (fields ++ [("attestation", .obj [("algorithm", .str "Ed25519"),
    ("keyId", .str GROVE_ATTESTATION_KEY_ID), ("signature", .str (K.sign payload.stringify))])]))

/-- The text whose signature a snapshot shows, if it shows one that could be. -/
def shownSignature (snapshot : Option Value) : Option String :=
  let attestation := optionalGet "attestation" snapshot
  if isText "Ed25519" (optionalGet "algorithm" attestation) &&
      isText GROVE_ATTESTATION_KEY_ID (optionalGet "keyId" attestation) then
    match optionalGet "signature" attestation with
    | some (.str signature) => if signatureShape signature then some signature else none
    | _ => none
  else none

/-- `verifyPublicGroveAttestation(snapshot, publicKeyPem)`. -/
def verifyPublicGroveAttestation (X : Sections) (K : GroveKey) (snapshot : Option Value) : Bool :=
  (shownSignature snapshot).any fun signature =>
    (groveSigningPayload X snapshot).any fun payload => K.verify payload.stringify signature

/-! ### The collector -/

/-- The network under which a snapshot is published. -/
def publicNetwork (toLowerCase : String → String) (network : String) : String :=
  let candidate := (toLowerCase (if network = "" then "unknown" else network)).toList.take 32
  let plain (c : Char) : Bool := ('a' ≤ c && c ≤ 'z') || c.isDigit
  match candidate with
  | c :: cs => if plain c && cs.all fun c => plain c || c == '_' || c == '-' then String.ofList candidate else "unknown"
  | [] => "unknown"

/-- What `buildPublicGroveSnapshot` is called with, apart from the directory and the key. -/
structure Options where
  previous : Option Value
  observedAt : ℤ
  network : String
  cadenceMinutes : ℤ
  relay : Option Value
  onchain : Option Value

/-- The previous snapshot may be carried on. -/
def compatible (X : Sections) (K : GroveKey) (network : String) (cadenceMinutes : ℤ) (previous : Option Value) : Bool :=
  let source := optionalGet "source" previous
  (isText GROVE_SCHEMA (optionalGet "schema" previous) || isText GROVE_SCHEMA_V2 (optionalGet "schema" previous)) &&
    isText network (optionalGet "network" previous) &&
    isNumber cadenceMinutes (optionalGet "cadenceMinutes" source) &&
    isBool true (optionalGet "bootnodeReachable" source) &&
    isBool true (optionalGet "directoryVerified" source) &&
    isText "announced-within-ttl" (optionalGet "definition" source) &&
    verifyPublicGroveAttestation X K previous

/-- A snapshot before it is attested.  What all of them have in common is in `fields`. -/
structure PublicSnapshot where
  schema : String
  network : String
  observedAt : String
  cadenceMinutes : ℤ
  announced : ℕ
  announcedNodeHours : Option ℤ
  history : List Sample
  relay : Option Value
  onchain : Option Value

def PublicSnapshot.source (p : PublicSnapshot) : Value :=
  .obj [("bootnodeReachable", .bool true), ("directoryVerified", .bool true),
    ("definition", .str "announced-within-ttl"), ("cadenceMinutes", number p.cadenceMinutes)]

def PublicSnapshot.growth (p : PublicSnapshot) : Value :=
  .obj [("windowHours", number 24), ("announcedNodeHours", p.announcedNodeHours.elim .null number),
    ("samples", number p.history.length)]

def privacyValue : Value :=
  .obj [("identities", .bool false), ("locations", .bool false), ("traffic", .bool false),
    ("stablePositions", .bool false), ("futureSharedStatsMinReportingNodes", number 5)]

/-- The fields in their order. -/
def PublicSnapshot.fields (p : PublicSnapshot) : List (String × Value) :=
  [("schema", .str p.schema), ("network", .str p.network), ("observedAt", .str p.observedAt), ("source", p.source),
    ("nodes", .obj [("announced", number p.announced)]), ("growth", p.growth), ("privacy", privacyValue),
    ("history", .arr (p.history.map Sample.value))] ++
  ((p.relay.map fun relay => ("relay", relay)).toList ++ (p.onchain.map fun onchain => ("onchain", onchain)).toList)

section Collect

variable (X : Sections) (K : GroveKey) (dateParse : DateParse) (toLowerCase : String → String)

/-- `buildPublicGroveSnapshot(…)`. -/
def buildPublicGroveSnapshot (directory : Option Value) (o : Options) : Except String PublicSnapshot :=
  match optionalGet "gateways" directory with
  | some (.arr gateways) =>
    if o.cadenceMinutes < 5 ∨ 60 < o.cadenceMinutes then .error "invalid Grove cadence"
    else
      let bucketMs := o.cadenceMinutes * MINUTE_MS
      let observedMs := o.observedAt / bucketMs * bucketMs
      match iso observedMs with
      | none => .error "invalid grove observation time"
      | some observed =>
        let network := publicNetwork toLowerCase o.network
        let announced := gateways.length
        if 100000 < announced then .error "directory too large for public Grove"
        else
          let previous := if compatible X K network o.cadenceMinutes o.previous then o.previous else none
          let carried := scrubGroveHistory dateParse previous observedMs GROVE_HISTORY_CAP
          let history := scrubSamples dateParse observedMs GROVE_HISTORY_CAP
            ((carried ++ [(⟨observed, announced⟩ : Sample)]).map Sample.value)
          if o.relay.any fun relay => !X.validPublicRelay relay observedMs then
            .error "invalid public relay aggregate"
          else if o.onchain.isSome ∧ o.relay.isNone then
            .error "Grove v2 onchain activity requires the v2 relay envelope"
          else if o.onchain.any fun onchain => !X.validPublicOnchainActivity onchain observedMs then
            .error "invalid public onchain aggregate"
          else
            .ok {
              schema := if o.relay.isNone then GROVE_SCHEMA else GROVE_SCHEMA_V2
              network := network
              observedAt := observed
              cadenceMinutes := o.cadenceMinutes
              announced := announced
              announcedNodeHours := aggregateAnnouncedNodeHours dateParse history observedMs
              history := history
              relay := o.relay
              onchain := o.onchain }
  | _ => .error "verified directory required"

/-- What `observeFleet` gives. -/
structure FleetResult where
  ok : Bool
  signerOk : Bool
  directoryFresh : Bool
  directory : Option Value

/-- What `collectPublicGrove` is called with, apart from `observe` and the key. -/
structure Collection where
  previous : Option Value
  network : String
  observedAt : ℤ
  relayAggregate : Option Value
  onchainActivity : Option Value

/-- The options of the builder; the cadence is its default. -/
def Collection.options (c : Collection) (relay : Option Value) : Options where
  previous := c.previous
  observedAt := c.observedAt
  network := c.network
  cadenceMinutes := 15
  relay := relay
  onchain := c.onchainActivity

/-- The relay section of a collection, or `none` when it throws. -/
def relayOf (fleet : FleetResult) (c : Collection) : Option (Option Value) :=
  match c.relayAggregate with
  | none => some none
  | some aggregate => (X.publicRelayFromAggregate aggregate (optionalGet "signer" fleet.directory)).map some

/-- `collectPublicGrove(…)`: the snapshot that is written. -/
def collectPublicGrove (fleet : FleetResult) (c : Collection) : Except String Value :=
  if !fleet.ok || !fleet.signerOk || !fleet.directoryFresh || !(fleet.directory.any Value.truthy) then
    .error "no verified bootnode directory available for public snapshot"
  else
    match relayOf X fleet c with
    | none => .error "invalid signed relay aggregate"
    | some relay =>
      match buildPublicGroveSnapshot X K dateParse toLowerCase fleet.directory (c.options relay) with
      | .error message => .error message
      | .ok snapshot => (attest X K snapshot.fields).elim (.error "TypeError") .ok

end Collect

/-! ### The site (`docs/post/api/_grove-contract.mjs`) -/

/-- `isoMillis(value)`, where it is a number. -/
def isoMillis (dateParse : DateParse) : Option Value → Option ℤ
  | some (.str s) => (dateParse (some (.str s))).filter fun ms => iso ms == some s
  | _ => none

/-- The keys of an object, in order. -/
def joinedKeys (keys : List String) : String := ",".intercalate (keys.mergeSort fun a b => a ≤ b)

/-- `exactKeys(value, keys)`. -/
def exactKeys (v : Option Value) (keys : List String) : Bool :=
  match v with
  | some (.obj fields) => joinedKeys (fields.map Prod.fst).dedup == joinedKeys keys
  | _ => false

/-- The samples are exact, in the order of their times, and none is later than the snapshot. -/
def validHistory (dateParse : DateParse) (observedAt : ℤ) : Option ℤ → List Value → Bool
  | _, [] => true
  | prior, sample :: rest =>
    match isoMillis dateParse (sample.get "at") with
    | none => false
    | some at_ =>
      exactKeys (some sample) ["at", "announced"] && prior.all (fun prior => decide (prior < at_)) &&
        decide (at_ ≤ observedAt) && (safeCount (sample.get "announced")).isSome &&
        validHistory dateParse observedAt (some at_) rest

def GROVE_NETWORK : String := "sepolia"

def validSource (source : Option Value) : Bool :=
  exactKeys source sourceKeys && isBool true (optionalGet "bootnodeReachable" source) &&
    isBool true (optionalGet "directoryVerified" source) &&
    isText "announced-within-ttl" (optionalGet "definition" source) &&
    isNumber 15 (optionalGet "cadenceMinutes" source)

def validNodes (nodes : Option Value) : Bool :=
  exactKeys nodes ["announced"] && (safeCount (optionalGet "announced" nodes)).isSome

def validHours : Option Value → Bool
  | some .null => true
  | hours => (hours.bind Value.asInteger).any fun n => decide (0 ≤ n ∧ n ≤ 2400000)

def validGrowth (samples : ℕ) (growth : Option Value) : Bool :=
  exactKeys growth growthKeys && isNumber 24 (optionalGet "windowHours" growth) &&
    validHours (optionalGet "announcedNodeHours" growth) && isNumber samples (optionalGet "samples" growth)

def validPrivacy (privacy : Option Value) : Bool :=
  exactKeys privacy privacyKeys && isBool false (optionalGet "identities" privacy) &&
    isBool false (optionalGet "locations" privacy) && isBool false (optionalGet "traffic" privacy) &&
    isBool false (optionalGet "stablePositions" privacy) &&
    isNumber 5 (optionalGet "futureSharedStatsMinReportingNodes" privacy)

/-- The text that a regular expression is tested on, unless it is another one than those of signatures. -/
def testedText : Value → Option String
  | .str s => some s
  | .arr [item] => testedText item
  | _ => none

def validAttestation (attestation : Option Value) : Bool :=
  exactKeys attestation ["algorithm", "keyId", "signature"] &&
    isText "Ed25519" (optionalGet "algorithm" attestation) &&
    isText GROVE_ATTESTATION_KEY_ID (optionalGet "keyId" attestation) &&
    ((optionalGet "signature" attestation).bind testedText).any signatureShape

/-- `validGroveSnapshot(value, { now })`. -/
def validGroveSnapshot (dateParse : DateParse) (v : Option Value) (now : ℤ) : Bool :=
  match isoMillis dateParse (optionalGet "observedAt" v), optionalGet "history" v with
  | some observedAt, some (.arr history) =>
    exactKeys v ["schema", "network", "observedAt", "source", "nodes", "growth", "privacy", "history", "attestation"] &&
      isText GROVE_SCHEMA (optionalGet "schema" v) && isText GROVE_NETWORK (optionalGet "network" v) &&
      decide (observedAt ≤ now + 5 * MINUTE_MS) && validSource (optionalGet "source" v) &&
      validNodes (optionalGet "nodes" v) && validGrowth history.length (optionalGet "growth" v) &&
      validPrivacy (optionalGet "privacy" v) && decide (1 ≤ history.length) && decide (history.length ≤ 97) &&
      validHistory dateParse observedAt none history &&
      (history.getLast?.any fun sample => isoMillis dateParse (sample.get "at") == some observedAt) &&
      validAttestation (optionalGet "attestation" v)
  | _, _ => false

/-- `verifyGroveSnapshot(snapshot)`, with the key that the site knows. -/
def verifyGroveSnapshot (K : GroveKey) (snapshot : Option Value) : Bool :=
  match signingFields snapshot, optionalGet "signature" (optionalGet "attestation" snapshot) with
  | some fields, some (.str signature) => K.verify (Value.stringify (.obj fields)) signature
  | _, _ => false

end ShadeTree.Grove.Snapshot
