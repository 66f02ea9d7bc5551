import Mathlib.Data.List.Dedup
import Mathlib.Data.List.Sort
import ShadeTree.Bootnode.Onion
import ShadeTree.Lib.Script

/-!
# The capabilities of a gateway (`canonicalCaps` in `lib/directory.mjs`)

A gateway signs what it serves: ports, a region, the versions it speaks, the artifacts it verifies, whom it admits,
what it sells and its rate.  `canonicalCaps` keeps what is well formed and drops the rest, field by field; what it
keeps is written in a fixed order, and these bytes are signed with the key of the onion.
-/

namespace ShadeTree.Directory

open ShadeTree.Lib

/-- The `pay` that is complete; a tier is its limit and its price. -/
structure CanonicalPay where
  protocols : List String
  onion : Option String
  port : ℤ
  asset : String
  chain : String
  tiers : List (ℕ × String)
  deriving DecidableEq

/-- The `rate` of a policy `grove-v4` with fixed windows. -/
structure CanonicalRate where
  epochSeconds : ℤ
  previousEpochsAccepted : ℤ
  rootFreshnessSeconds : ℤ
  payloadBytesPerSlot : ℤ
  deriving DecidableEq

structure CanonicalCaps where
  ports : Option (List ℤ)
  region : Option String
  proto : Option (ℤ × ℤ)
  artifacts : Option (List String)
  admits : Option (List String)
  pay : Option CanonicalPay
  rate : Option CanonicalRate
  deriving DecidableEq

def CAPS_DOMAIN : List Char := "Shade Tree gateway capabilities v1\n".toList

def PRE_V4_CAPS_DOMAIN : List Char := "RGOE gateway capabilities v1\n".toList

def REGION_BUCKETS : List String := ["na", "sa", "eu", "af", "as", "oc", "aq", "unknown"]

def MAX_CAPS_ARTIFACTS : ℕ := 8

def ADMIT_PATHS : List String := ["invited", "staked", "paid"]

def PAY_PROTOCOLS : List String := ["x402", "mpp"]

def MAX_CAPS_PAY_TIERS : ℕ := 8

/-! ### Texts -/

/-- `toLowerCase()`, as far as what it is compared with can tell. -/
def toLowerCase (s : String) : String := String.ofList (s.toList.flatMap Bootnode.toLowerCase)

/-- `[a-z0-9]`. -/
def isLowerAlnum (c : Char) : Bool := ('a' ≤ c && c ≤ 'z') || ('0' ≤ c && c ≤ '9')

def ARTIFACT_ID_RE (s : String) : Bool :=
  match s.toList with
  | [] => false
  | c :: cs => isLowerAlnum c && cs.length ≤ 63 &&
      cs.all fun c => isLowerAlnum c || c == '.' || c == '_' || c == '-'

/-- `[1-9]` and up to `n` more digits. -/
def isCounter (n : ℕ) : List Char → Bool
  | [] => false
  | c :: cs => '1' ≤ c && c ≤ '9' && cs.length ≤ n && cs.all fun c => '0' ≤ c && c ≤ '9'

/-- The rest of a text after a start. -/
def afterStart (start s : List Char) : Option (List Char) := if start <+: s then some (s.drop start.length) else none

def CHAIN_RE (s : String) : Bool := ((afterStart "eip155:".toList s.toList).map (isCounter 15)).getD false

def isHexDigit (c : Char) : Bool := ('0' ≤ c && c ≤ '9') || ('a' ≤ c && c ≤ 'f') || ('A' ≤ c && c ≤ 'F')

def ASSET_RE (s : String) : Bool :=
  ((afterStart "0x".toList s.toList).map fun hex => decide (hex.length = 40) && hex.all isHexDigit).getD false

/-- `ONION_RE` as a test. -/
def onionShape (s : String) : Bool :=
  s.toList.length = 62 && s.toList.drop 56 == ".onion".toList &&
    (s.toList.take 56).all fun c => (Bootnode.b32Index c).isSome

/-- The number that a text of digits is. -/
def limitOf (s : String) : ℕ := Nat.ofDigitChars 10 s.toList 0

def TIER_KEY_RE (s : String) : Bool := isCounter 4 s.toList

def TIER_PRICE_RE (s : String) : Bool := isCounter 39 s.toList

/-! ### The fields -/

/-- A list that is empty is left out. -/
def nonempty {α : Type} (l : List α) : Option (List α) := if l.isEmpty then none else some l

/-- The items sorted, each once. -/
def sortedSet {α : Type} [DecidableEq α] [LE α] [DecidableLE α] (l : List α) : List α :=
  l.dedup.insertionSort (· ≤ ·)

def isPort (p : ℤ) : Bool := 1 ≤ p && p ≤ 65535

def MAX_SAFE_INTEGER : ℤ := 2 ^ 53 - 1

/-- The positive safe integer that a value is. -/
def safePositive (v : Option Value) : Option ℤ := (v.bind Value.asInteger).filter fun n => 0 < n ∧ n ≤ MAX_SAFE_INTEGER

def canonicalPorts (v : Option Value) : Option (List ℤ) :=
  (v.bind Value.asArray).bind fun items => nonempty (sortedSet ((items.filterMap Value.asInteger).filter isPort))

def canonicalRegion (v : Option Value) : Option String :=
  (v.bind Value.asString).filter fun region => region ∈ REGION_BUCKETS

def canonicalProto (v : Option Value) : Option (ℤ × ℤ) := do
  let proto ← v
  let min ← (proto.get "min").bind Value.asInteger
  let max ← (proto.get "max").bind Value.asInteger
  if 1 ≤ min ∧ min ≤ max then some (min, max) else none

def canonicalArtifacts (v : Option Value) : Option (List String) :=
  (v.bind Value.asArray).bind fun items =>
    (nonempty (sortedSet ((items.filterMap Value.asString).filter ARTIFACT_ID_RE))).filter fun ids =>
      ids.length ≤ MAX_CAPS_ARTIFACTS

/-- The names of a fixed list that are in a list of strings, in any case. -/
def namedIn (names : List String) (v : Option Value) : List String :=
  match v.bind Value.asArray with
  | none => []
  | some items =>
    let set := (items.filterMap Value.asString).map toLowerCase
    names.filter fun name => name ∈ set

def canonicalAdmits (v : Option Value) : List String := namedIn ADMIT_PATHS v

/-- The price of a tier as text. -/
def priceText (v : Value) : Option String :=
  match v with
  | .str s => some s
  | .num (.fin d) => if d.toInt?.any fun n => 0 < n then some (String.ofList d.text) else none
  | _ => none

/-- The keys of an object, each once. -/
def keysOf : Value → List String
  | .obj fields => (fields.map Prod.fst).dedup
  | _ => []

def canonicalTiers (tiers : Value) : List (ℕ × String) :=
  let keys := (keysOf tiers).filter fun key => TIER_KEY_RE key && limitOf key ≤ 65535
  (keys.insertionSort fun a b => limitOf a ≤ limitOf b).filterMap fun key =>
    (((tiers.get key).bind priceText).filter TIER_PRICE_RE).map fun price => (limitOf key, price)

def canonicalPay (v : Option Value) : Option CanonicalPay := do
  let pay ← v
  let protocols ← nonempty (namedIn PAY_PROTOCOLS (pay.get "protocols"))
  let onion := (((pay.get "onion").bind Value.asString).map toLowerCase).filter onionShape
  let port ← ((pay.get "port").bind Value.asInteger).filter isPort
  let asset ← ((pay.get "asset").bind Value.asString).filter ASSET_RE
  let chain ← ((pay.get "chain").bind Value.asString).filter CHAIN_RE
  let tiers ← nonempty (((pay.get "tiers").map canonicalTiers).getD [])
  if tiers.length ≤ MAX_CAPS_PAY_TIERS then some ⟨protocols, onion, port, toLowerCase asset, chain, tiers⟩ else none

def canonicalRate (v : Option Value) : Option CanonicalRate := do
  let rate ← v
  if (rate.get "scope").bind Value.asString ≠ some "grove-v4" ∨
      (rate.get "window").bind Value.asString ≠ some "fixed" then none
  else
    let epochSeconds ← safePositive (rate.get "epochSeconds")
    let rootFreshnessSeconds ← safePositive (rate.get "rootFreshnessSeconds")
    let payloadBytesPerSlot ← safePositive (rate.get "payloadBytesPerSlot")
    if (rate.get "previousEpochsAccepted").bind Value.asInteger = some 1 then
      some ⟨epochSeconds, 1, rootFreshnessSeconds, payloadBytesPerSlot⟩
    else none

def canonicalCaps (caps : Option Value) : CanonicalCaps where
  ports := canonicalPorts (caps.bind (Json.get "ports"))
  region := canonicalRegion (caps.bind (Json.get "region"))
  proto := canonicalProto (caps.bind (Json.get "proto"))
  artifacts := canonicalArtifacts (caps.bind (Json.get "artifacts"))
  admits := nonempty (canonicalAdmits (caps.bind (Json.get "admits")))
  pay := canonicalPay (caps.bind (Json.get "pay"))
  rate := canonicalRate (caps.bind (Json.get "rate"))

/-- Nothing is left. -/
def CanonicalCaps.none : CanonicalCaps := ⟨.none, .none, .none, .none, .none, .none, .none⟩

def hasCaps (caps : Option Value) : Bool := canonicalCaps caps ≠ .none

/-! ### Their text -/

def numJson (n : ℤ) : Json Decimal := .num (.ofInt n)

def CanonicalPay.json (pay : CanonicalPay) : Json Decimal :=
  .obj ([("protocols", .arr (pay.protocols.map .str))] ++ (pay.onion.map fun onion => ("onion", .str onion)).toList ++
    [("port", numJson pay.port), ("asset", .str pay.asset), ("chain", .str pay.chain),
      ("tiers", .obj (pay.tiers.map fun tier => (toString tier.1, .str tier.2)))])

def CanonicalRate.json (rate : CanonicalRate) : Json Decimal :=
  .obj [("scope", .str "grove-v4"), ("window", .str "fixed"), ("epochSeconds", numJson rate.epochSeconds),
    ("previousEpochsAccepted", numJson rate.previousEpochsAccepted),
    ("rootFreshnessSeconds", numJson rate.rootFreshnessSeconds),
    ("payloadBytesPerSlot", numJson rate.payloadBytesPerSlot)]

/-- The fields that are there, in their order. -/
def CanonicalCaps.json (c : CanonicalCaps) : Json Decimal :=
  .obj ((c.ports.map fun ports => ("ports", .arr (ports.map numJson))).toList ++
    (c.region.map fun region => ("region", .str region)).toList ++
    (c.proto.map fun proto => ("proto", .obj [("min", numJson proto.1), ("max", numJson proto.2)])).toList ++
    (c.artifacts.map fun ids => ("artifacts", .arr (ids.map .str))).toList ++
    (c.admits.map fun admits => ("admits", .arr (admits.map .str))).toList ++
    (c.pay.map fun pay => ("pay", pay.json)).toList ++
    (c.rate.map fun rate => ("rate", rate.json)).toList)

/-- The bytes that the key of the onion signs. -/
def capsBytes (domain : List Char) (onion : String) (c : CanonicalCaps) : List Char :=
  domain ++ (Json.obj [("onion", .str onion), ("caps", c.json)]).write Decimal.text

def canonicalCapsBytes (onion : String) (caps : Option Value) : List Char := capsBytes CAPS_DOMAIN onion (canonicalCaps caps)

def canonicalPreV4CapsBytes (onion : String) (caps : Option Value) : List Char :=
  capsBytes PRE_V4_CAPS_DOMAIN onion (canonicalCaps caps)

/-! ### One text for one block -/

lemma get_optional {α : Type} {N : Type} (o : Option α) (name key : String) (f : α → Json N) :
    (Json.obj (o.map fun a => (name, f a)).toList).get key = if name = key then o.map f else none := by
  cases o with
  | none => simp [Json.get_nil]
  | some a => simp [Json.get_cons, Json.get_nil]

lemma numJson_inj {n m : ℤ} (h : numJson n = numJson m) : n = m := by
  have hdecimal : Decimal.ofInt n = Decimal.ofInt m := Json.num.inj h
  have hint := congrArg Decimal.toInt? hdecimal
  rw [Decimal.toInt?_ofInt, Decimal.toInt?_ofInt] at hint
  exact Option.some.inj hint

lemma str_injective {N : Type} : Function.Injective (Json.str : String → Json N) := fun _ _ h => Json.str.inj h

lemma CanonicalPay.json_inj {p p' : CanonicalPay} (h : p.json = p'.json) : p = p' := by
  have hget : ∀ key, p.json.get key = p'.json.get key := fun key => by rw [h]
  have hprotocols := hget "protocols"
  have honion := hget "onion"
  have hport := hget "port"
  have hasset := hget "asset"
  have hchain := hget "chain"
  have htiers := hget "tiers"
  simp [CanonicalPay.json, Json.get_append, Json.get_cons, Json.get_nil, get_optional] at hprotocols honion hport hasset hchain htiers
  have htier : Function.Injective fun tier : ℕ × String => (tier.1.repr, (Json.str tier.2 : Json Decimal)) := by
    rintro ⟨n, s⟩ ⟨m, t⟩ heq
    obtain ⟨hn, hs⟩ := Prod.mk.inj heq
    have hread := congrArg (fun text : String => Nat.ofDigitChars 10 text.toList 0) hn
    simp only [Nat.repr, String.toList_ofList, Nat.ofDigitChars_ten_toDigits] at hread
    exact Prod.ext hread (Json.str.inj hs)
  cases p
  cases p'
  simp only [CanonicalPay.mk.injEq]
  exact ⟨List.map_injective_iff.mpr str_injective hprotocols, Option.map_injective str_injective honion,
    numJson_inj hport, hasset, hchain, List.map_injective_iff.mpr htier htiers⟩

lemma CanonicalRate.json_inj {r r' : CanonicalRate} (h : r.json = r'.json) : r = r' := by
  have hget : ∀ key, r.json.get key = r'.json.get key := fun key => by rw [h]
  have hepoch := hget "epochSeconds"
  have hprevious := hget "previousEpochsAccepted"
  have hroot := hget "rootFreshnessSeconds"
  have hbytes := hget "payloadBytesPerSlot"
  simp [CanonicalRate.json, Json.get_cons, Json.get_nil] at hepoch hprevious hroot hbytes
  cases r
  cases r'
  simp only [CanonicalRate.mk.injEq]
  exact ⟨numJson_inj hepoch, numJson_inj hprevious, numJson_inj hroot, numJson_inj hbytes⟩

lemma CanonicalCaps.json_inj {c c' : CanonicalCaps} (h : c.json = c'.json) : c = c' := by
  have hget : ∀ key, c.json.get key = c'.json.get key := fun key => by rw [h]
  have hports := hget "ports"
  have hregion := hget "region"
  have hproto := hget "proto"
  have hartifacts := hget "artifacts"
  have hadmits := hget "admits"
  have hpay := hget "pay"
  have hrate := hget "rate"
  simp [CanonicalCaps.json, Json.get_append, get_optional] at hports hregion hproto hartifacts hadmits hpay hrate
  have hnums : Function.Injective fun l : List ℤ => Json.arr (l.map numJson) :=
    fun _ _ heq => List.map_injective_iff.mpr (fun _ _ => numJson_inj) (Json.arr.inj heq)
  have hpair : Function.Injective fun pair : ℤ × ℤ => Json.obj [("min", numJson pair.1), ("max", numJson pair.2)] := by
    rintro ⟨n, m⟩ ⟨n', m'⟩ heq
    simp only [Json.obj.injEq, List.cons.injEq, Prod.mk.injEq, true_and, and_true] at heq
    rw [numJson_inj heq.1, numJson_inj heq.2]
  have hstrs : Function.Injective fun l : List String => (Json.arr (l.map Json.str) : Json Decimal) :=
    fun _ _ heq => List.map_injective_iff.mpr str_injective (Json.arr.inj heq)
  cases c
  cases c'
  simp only [CanonicalCaps.mk.injEq]
  exact ⟨Option.map_injective hnums hports, Option.map_injective str_injective hregion,
    Option.map_injective hpair hproto, Option.map_injective hstrs hartifacts, Option.map_injective hstrs hadmits,
    Option.map_injective (fun _ _ => CanonicalPay.json_inj) hpay,
    Option.map_injective (fun _ _ => CanonicalRate.json_inj) hrate⟩

/-! ### Read again from their text -/

section Wire

variable {α : Type} {f : Value → Option α}

lemma bind_map_wire (hf : ∀ v : Value, f v.wire = f v) (v : Option Value) : (v.map Value.wire).bind f = v.bind f := by
  cases v with
  | none => rfl
  | some v => exact hf v

lemma filterMap_map_wire (hf : ∀ v : Value, f v.wire = f v) (items : List Value) :
    (items.map Value.wire).filterMap f = items.filterMap f := by
  rw [List.filterMap_map]
  exact List.filterMap_congr fun v _ => hf v

lemma bind_get_wire (key : String) (v : Option Value) :
    (v.map Value.wire).bind (Json.get key) = (v.bind (Json.get key)).map Value.wire := by
  cases v with
  | none => rfl
  | some v => exact Value.get_wire key v

lemma bind_asArray_wire (v : Option Value) :
    (v.map Value.wire).bind Value.asArray = (v.bind Value.asArray).map (List.map Value.wire) := by
  cases v with
  | none => rfl
  | some v => exact v.asArray_wire

lemma namedIn_wire (names : List String) (v : Option Value) : namedIn names (v.map Value.wire) = namedIn names v := by
  unfold namedIn
  rw [bind_asArray_wire]
  cases v.bind Value.asArray with
  | none => rfl
  | some items => simp only [Option.map_some, filterMap_map_wire Value.asString_wire]

lemma safePositive_wire (v : Option Value) : safePositive (v.map Value.wire) = safePositive v := by
  unfold safePositive
  rw [bind_map_wire Value.asInteger_wire]

lemma canonicalPorts_wire (v : Option Value) : canonicalPorts (v.map Value.wire) = canonicalPorts v := by
  unfold canonicalPorts
  rw [bind_asArray_wire]
  cases v.bind Value.asArray with
  | none => rfl
  | some items => simp only [Option.map_some, Option.bind_some, filterMap_map_wire Value.asInteger_wire]

lemma canonicalArtifacts_wire (v : Option Value) : canonicalArtifacts (v.map Value.wire) = canonicalArtifacts v := by
  unfold canonicalArtifacts
  rw [bind_asArray_wire]
  cases v.bind Value.asArray with
  | none => rfl
  | some items => simp only [Option.map_some, Option.bind_some, filterMap_map_wire Value.asString_wire]

lemma priceText_wire (v : Value) : priceText v.wire = priceText v := by
  rcases v with _ | _ | n | _ | _ | _ <;> try rfl
  cases n <;> rfl

lemma canonicalTiers_wire (tiers : Value) : canonicalTiers tiers.wire = canonicalTiers tiers := by
  have hkeys : keysOf tiers.wire = keysOf tiers := by
    rcases tiers with _ | _ | n | _ | _ | fields <;> try rfl
    · cases n <;> rfl
    · rw [Value.wire_obj]
      simp only [keysOf, List.map_map]
      rfl
  unfold canonicalTiers
  rw [hkeys]
  simp only [Value.get_wire, bind_map_wire priceText_wire]

lemma canonicalProto_wire (v : Option Value) : canonicalProto (v.map Value.wire) = canonicalProto v := by
  cases v with
  | none => rfl
  | some proto =>
    simp only [canonicalProto, Option.map_some, Option.bind_eq_bind, Option.bind_some, Value.get_wire,
      bind_map_wire Value.asInteger_wire]

lemma canonicalPay_wire (v : Option Value) : canonicalPay (v.map Value.wire) = canonicalPay v := by
  cases v with
  | none => rfl
  | some pay =>
    simp only [canonicalPay, Option.map_some, Option.bind_eq_bind, Option.bind_some, Value.get_wire, namedIn_wire,
      bind_map_wire Value.asInteger_wire, bind_map_wire Value.asString_wire, Option.map_map, Function.comp_def,
      canonicalTiers_wire]

lemma canonicalRate_wire (v : Option Value) : canonicalRate (v.map Value.wire) = canonicalRate v := by
  cases v with
  | none => rfl
  | some rate =>
    simp only [canonicalRate, Option.map_some, Option.bind_eq_bind, Option.bind_some, Value.get_wire,
      bind_map_wire Value.asInteger_wire, bind_map_wire Value.asString_wire, safePositive_wire]

/-- Capabilities are the same before they are written and after they are read. -/
lemma canonicalCaps_wire (caps : Option Value) : canonicalCaps (caps.map Value.wire) = canonicalCaps caps := by
  simp only [canonicalCaps, canonicalRegion, canonicalAdmits, bind_get_wire, canonicalPorts_wire, canonicalProto_wire,
    canonicalArtifacts_wire, namedIn_wire, canonicalPay_wire, canonicalRate_wire, bind_map_wire Value.asString_wire]

end Wire

end ShadeTree.Directory
