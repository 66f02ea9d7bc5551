import ShadeTree.Directory.Caps
import ShadeTree.Lib.Document

/-!
# Capabilities on the Rust side (`shade-tree-proto/src/lib.rs`, `CapsDto` in `shade-tree-client/src/dircache.rs`)

The capabilities of an entry are read field by field with a type for each; a value of another type makes the whole
directory unreadable.  `canonical_caps` then drops what is not well formed, and the text of what is left is built by
hand.  What it builds is one type on both sides.
-/

namespace ShadeTree.Proto

open ShadeTree.Lib
open ShadeTree.Directory (CanonicalPay CanonicalRate CanonicalCaps CAPS_DOMAIN REGION_BUCKETS MAX_CAPS_ARTIFACTS
  ADMIT_PATHS PAY_PROTOCOLS MAX_CAPS_PAY_TIERS afterStart isHexDigit isLowerAlnum limitOf nonempty numJson sortedSet)

/-! ### What is read -/

structure ProtoCaps where
  min : I64
  max : I64

structure PayCaps where
  protocols : Option (List String)
  onion : Option String
  port : Option I64
  asset : Option String
  chain : Option String
  tiers : Option (List (String × String))

structure RateCaps where
  scope : String
  window : String
  epochSeconds : I64
  previousEpochsAccepted : I64
  rootFreshnessSeconds : I64
  payloadBytesPerSlot : I64

structure Caps where
  ports : Option (List I64)
  region : Option String
  proto : Option ProtoCaps
  artifacts : Option (List String)
  admits : Option (List String)
  pay : Option PayCaps
  rate : Option RateCaps

/-- How a double is printed: with a point or an exponent, never with digits alone. -/
structure FloatText where
  text : Number → String
  marked : ∀ x, (text x).toList.all Char.isDigit = false

/-- The text of a price: of a string itself, of a number its text, of anything else the empty text. -/
def FloatText.price (F : FloatText) : Document → String
  | .str s => s
  | .num (.whole n) =>
    if -2 ^ 63 ≤ n ∧ n < 2 ^ 64 then
      String.ofList (if n < 0 then '-' :: Decimal.digitsText n.natAbs else Decimal.digitsText n.natAbs)
    else F.text (Literal.whole n).number
  | .num (.other x) => F.text x
  | _ => ""

/-- A price stands in six objects and lists; the reader stops at 128. -/
def PRICE_DEPTH : ℕ := 121

/-- `ProtoCapsDto`. -/
def ProtoCaps.parse (d : Document) : Option ProtoCaps := do
  let field ← d.record ["min", "max"]
  let min ← (field "min").bind Document.int64
  let max ← (field "max").bind Document.int64
  return ⟨min, max⟩

/-- `PayCapsDto`. -/
def PayCaps.parse (F : FloatText) (d : Document) : Option PayCaps := do
  let field ← d.record ["protocols", "onion", "port", "asset", "chain", "tiers"]
  let protocols ← Document.optional (Document.vec Document.string) (field "protocols")
  let onion ← Document.optional Document.string (field "onion")
  let port ← Document.optional Document.int64 (field "port")
  let asset ← Document.optional Document.string (field "asset")
  let chain ← Document.optional Document.string (field "chain")
  let tiers ← Document.optional (Document.btreeMap (Document.anyValue PRICE_DEPTH)) (field "tiers")
  return ⟨protocols, onion, port, asset, chain, tiers.map (List.map fun tier => (tier.1, F.price tier.2))⟩

/-- `RateCapsDto`. -/
def RateCaps.parse (d : Document) : Option RateCaps := do
  let field ← d.record ["scope", "window", "epochSeconds", "previousEpochsAccepted", "rootFreshnessSeconds",
    "payloadBytesPerSlot"]
  let scope ← (field "scope").bind Document.string
  let window ← (field "window").bind Document.string
  let epochSeconds ← (field "epochSeconds").bind Document.int64
  let previousEpochsAccepted ← (field "previousEpochsAccepted").bind Document.int64
  let rootFreshnessSeconds ← (field "rootFreshnessSeconds").bind Document.int64
  let payloadBytesPerSlot ← (field "payloadBytesPerSlot").bind Document.int64
  return ⟨scope, window, epochSeconds, previousEpochsAccepted, rootFreshnessSeconds, payloadBytesPerSlot⟩

/-- `CapsDto`. -/
def Caps.parse (F : FloatText) (d : Document) : Option Caps := do
  let field ← d.record ["ports", "region", "proto", "artifacts", "admits", "pay", "rate"]
  let ports ← Document.optional (Document.vec Document.int64) (field "ports")
  let region ← Document.optional Document.string (field "region")
  let proto ← Document.optional ProtoCaps.parse (field "proto")
  let artifacts ← Document.optional (Document.vec Document.string) (field "artifacts")
  let admits ← Document.optional (Document.vec Document.string) (field "admits")
  let pay ← Document.optional (PayCaps.parse F) (field "pay")
  let rate ← Document.optional RateCaps.parse (field "rate")
  return ⟨ports, region, proto, artifacts, admits, pay, rate⟩

/-! ### What is kept -/

def toAsciiLowercase (s : String) : String :=
  String.ofList (s.toList.map fun c => if 'A' ≤ c ∧ c ≤ 'Z' then Char.ofNat (c.toNat + 32) else c)

/-- `len()`, in bytes. -/
def byteLen (s : List Char) : ℕ := (s.map Char.utf8Size).sum

def isHexStr (s : List Char) : Bool := !s.isEmpty && s.all isHexDigit

def isCanonicalUint (s : List Char) (maxLen : ℕ) : Bool :=
  !s.isEmpty && byteLen s ≤ maxLen && s.all Char.isDigit && s.head? ≠ some '0'

def isV3OnionShape (o : String) : Bool :=
  byteLen o.toList = 62 && ".onion".toList.isSuffixOf o.toList &&
    (o.toList.take (o.toList.length - 6)).all fun c => ('a' ≤ c && c ≤ 'z') || ('2' ≤ c && c ≤ '7')

def isRegionBucket (r : String) : Bool := r ∈ REGION_BUCKETS

def isArtifactId (s : String) : Bool :=
  match s.toList with
  | [] => false
  | c :: cs => byteLen (c :: cs) ≤ 64 && isLowerAlnum c &&
      cs.all fun c => isLowerAlnum c || c == '.' || c == '_' || c == '-'

/-- The names of a fixed list that are in a list, in any case of ASCII. -/
def namedIn (names list : List String) : List String :=
  names.filter fun name => (list.map toAsciiLowercase).any fun a => a = name

def canonicalAdmits (list : List String) : List String := namedIn ADMIT_PATHS list

/-- The tiers that are kept, in their order; the first under a limit stays. -/
def keepTiers (tiers : List (String × String)) : List (ℕ × String) :=
  tiers.foldl (fun kept tier =>
    if isCanonicalUint tier.1.toList 5 ∧ 1 ≤ limitOf tier.1 ∧ limitOf tier.1 ≤ 65535 ∧
        isCanonicalUint tier.2.toList 40 ∧ ∀ other ∈ kept, other.1 ≠ limitOf tier.1 then
      kept ++ [(limitOf tier.1, tier.2)]
    else kept) []

def canonicalTiers (tiers : List (String × String)) : List (ℕ × String) :=
  (keepTiers tiers).insertionSort fun a b => a.1 ≤ b.1

def canonicalPay (pay : PayCaps) : Option CanonicalPay := do
  let protocols ← nonempty (namedIn PAY_PROTOCOLS (pay.protocols.getD []))
  let onion := (pay.onion.map toAsciiLowercase).filter isV3OnionShape
  let port ← (pay.port.map Subtype.val).filter fun p => 1 ≤ p ∧ p ≤ 65535
  let asset ← pay.asset.filter fun a => byteLen a.toList = 42 ∧ (afterStart "0x".toList a.toList).any isHexStr
  let chain ← pay.chain.filter fun c => (afterStart "eip155:".toList c.toList).any fun id => isCanonicalUint id 16
  let tiers ← nonempty (canonicalTiers (pay.tiers.getD []))
  if tiers.length ≤ MAX_CAPS_PAY_TIERS then some ⟨protocols, onion, port, toAsciiLowercase asset, chain, tiers⟩
  else none

def canonicalRate (rate : RateCaps) : Option CanonicalRate :=
  if rate.scope ≠ "grove-v4" ∨ rate.window ≠ "fixed" ∨
      ¬ (1 ≤ rate.epochSeconds.1 ∧ rate.epochSeconds.1 ≤ 86400) ∨
      ¬ (0 ≤ rate.previousEpochsAccepted.1 ∧ rate.previousEpochsAccepted.1 ≤ 16) ∨
      ¬ (1 ≤ rate.rootFreshnessSeconds.1 ∧ rate.rootFreshnessSeconds.1 ≤ 86400) ∨
      rate.payloadBytesPerSlot.1 ≤ 0 then none
  else some ⟨rate.epochSeconds.1, rate.previousEpochsAccepted.1, rate.rootFreshnessSeconds.1,
    rate.payloadBytesPerSlot.1⟩

def canonicalCaps (caps : Caps) : CanonicalCaps where
  ports := caps.ports.bind fun ports =>
    nonempty (sortedSet ((ports.map Subtype.val).filter fun p => 1 ≤ p ∧ p ≤ 65535))
  region := caps.region.filter isRegionBucket
  proto := (caps.proto.filter fun p => 1 ≤ p.min.1 ∧ p.min.1 ≤ p.max.1).map fun p => (p.min.1, p.max.1)
  artifacts := caps.artifacts.bind fun list =>
    (nonempty (sortedSet (list.filter isArtifactId))).filter fun ids => ids.length ≤ MAX_CAPS_ARTIFACTS
  admits := caps.admits.bind fun list => nonempty (canonicalAdmits list)
  pay := caps.pay.bind canonicalPay
  rate := caps.rate.bind canonicalRate

def hasCaps (caps : Caps) : Bool := canonicalCaps caps ≠ .none

/-! ### The text -/

def pushChar (c : Char) : List Char :=
  if c = '"' then ['\\', '"']
  else if c = '\\' then ['\\', '\\']
  else if c.toNat = 8 then ['\\', 'b']
  else if c.toNat = 9 then ['\\', 't']
  else if c.toNat = 10 then ['\\', 'n']
  else if c.toNat = 12 then ['\\', 'f']
  else if c.toNat = 13 then ['\\', 'r']
  else if c.toNat < 32 then ['\\', 'u', Json.hexDigit (c.toNat / 4096 % 16), Json.hexDigit (c.toNat / 256 % 16),
    Json.hexDigit (c.toNat / 16 % 16), Json.hexDigit (c.toNat % 16)]
  else [c]

def pushJsonString (s : String) : List Char := '"' :: (s.toList.flatMap pushChar ++ ['"'])

/-- A number of type `u64` as text. -/
def u64Text (n : ℤ) : List Char := Decimal.digitsText n.toNat

/-- The texts with a comma before each but the first. -/
def commas : List (List Char) → List Char
  | [] => []
  | [text] => text
  | text :: texts => text ++ ',' :: commas texts

def stringList (l : List String) : List Char := '[' :: (commas (l.map pushJsonString) ++ [']'])

def payText (pay : CanonicalPay) : List Char :=
  "\"pay\":\x7b\"protocols\":".toList ++ stringList pay.protocols ++
    (match pay.onion with
      | none => []
      | some onion => ",\"onion\":".toList ++ pushJsonString onion) ++
    ",\"port\":".toList ++ u64Text pay.port ++ ",\"asset\":".toList ++ pushJsonString pay.asset ++
    ",\"chain\":".toList ++ pushJsonString pay.chain ++ ",\"tiers\":\x7b".toList ++
    commas (pay.tiers.map fun tier => pushJsonString (toString tier.1) ++ ':' :: pushJsonString tier.2) ++
    "\x7d\x7d".toList

def rateText (rate : CanonicalRate) : List Char :=
  "\"rate\":\x7b\"scope\":".toList ++ pushJsonString "grove-v4" ++ ",\"window\":".toList ++ pushJsonString "fixed" ++
    ",\"epochSeconds\":".toList ++ u64Text rate.epochSeconds ++
    ",\"previousEpochsAccepted\":".toList ++ u64Text rate.previousEpochsAccepted ++
    ",\"rootFreshnessSeconds\":".toList ++ u64Text rate.rootFreshnessSeconds ++
    ",\"payloadBytesPerSlot\":".toList ++ u64Text rate.payloadBytesPerSlot ++ "\x7d".toList

/-- `canonical_caps_json`. -/
def canonicalCapsJson (c : CanonicalCaps) : List Char :=
  '\x7b' :: (commas (
    (c.ports.map fun ports => "\"ports\":[".toList ++ commas (ports.map u64Text) ++ [']']).toList ++
    (c.region.map fun region => "\"region\":".toList ++ pushJsonString region).toList ++
    (c.proto.map fun proto => "\"proto\":\x7b\"min\":".toList ++ u64Text proto.1 ++
      ",\"max\":".toList ++ u64Text proto.2 ++ "\x7d".toList).toList ++
    (c.artifacts.map fun ids => "\"artifacts\":".toList ++ stringList ids).toList ++
    (c.admits.map fun admits => "\"admits\":".toList ++ stringList admits).toList ++
    (c.pay.map payText).toList ++ (c.rate.map rateText).toList) ++ ['\x7d'])

def canonicalCapsBytes (onion : String) (caps : Caps) : List Char :=
  CAPS_DOMAIN ++ "\x7b\"onion\":".toList ++ pushJsonString onion ++ ",\"caps\":".toList ++
    canonicalCapsJson (canonicalCaps caps) ++ "\x7d".toList

/-! ### One text on both sides -/

lemma pushJsonString_eq (s : String) : pushJsonString s = Json.quote s := by
  have hchar : pushChar = Json.escape := by
    funext c
    unfold pushChar Json.escape
    split_ifs <;> try rfl
    next hlow =>
      have h1 : c.toNat / 4096 % 16 = 0 := by omega
      have h2 : c.toNat / 256 % 16 = 0 := by omega
      have h3 : c.toNat / 16 % 16 = c.toNat / 16 := by omega
      rw [h1, h2, h3]
      rfl
  rw [pushJsonString, Json.quote, hchar]

lemma write_arr {N : Type} (num : N → List Char) (items : List (Json N)) :
    (Json.arr items).write num = '[' :: (commas (items.map (Json.write num)) ++ [']']) := by
  have hdrop : ∀ items : List (Json N), (Json.writeItems num items).drop 1 = commas (items.map (Json.write num)) := by
    intro items
    induction items with
    | nil => rfl
    | cons item items ih =>
      cases items with
      | nil => simp [Json.writeItems, commas]
      | cons next items =>
        simp only [Json.writeItems, List.drop_succ_cons, List.drop_zero, List.map_cons, commas] at ih ⊢
        rw [ih]
  rw [Json.write, hdrop]

lemma write_obj {N : Type} (num : N → List Char) (fields : List (String × Json N)) :
    (Json.obj fields).write num =
      '\x7b' :: (commas (fields.map fun field => Json.quote field.1 ++ ':' :: field.2.write num) ++ ['\x7d']) := by
  have hdrop : ∀ fields : List (String × Json N), (Json.writeFields num fields).drop 1 =
      commas (fields.map fun field => Json.quote field.1 ++ ':' :: field.2.write num) := by
    intro fields
    induction fields with
    | nil => rfl
    | cons field fields ih =>
      cases fields with
      | nil => simp [Json.writeFields, commas]
      | cons next fields =>
        simp only [Json.writeFields, List.drop_succ_cons, List.drop_zero, List.map_cons, commas, List.append_assoc,
          List.cons_append] at ih ⊢
        rw [ih]
  rw [Json.write, hdrop]

/-- A number that JavaScript prints digit by digit. -/
def Plain (n : ℤ) : Prop := 0 ≤ n ∧ n < 10 ^ 21

lemma u64Text_eq {n : ℤ} (h : Plain n) : u64Text n = (Directory.numJson n).write Decimal.text := by
  obtain ⟨hpos, hlt⟩ := h
  have hnat : n.toNat = n.natAbs := by omega
  rw [Directory.numJson, Json.write, Decimal.text_ofInt (by omega), if_neg (by omega), u64Text, hnat]

lemma stringList_eq (l : List String) : stringList l = (Json.arr (l.map Json.str)).write Decimal.text := by
  rw [stringList, write_arr, List.map_map]
  rw [funext pushJsonString_eq]
  rfl

lemma payText_eq {pay : CanonicalPay} (hport : Plain pay.port) :
    payText pay = Json.quote "pay" ++ ':' :: pay.json.write Decimal.text := by
  have htiers : (pay.tiers.map fun tier => pushJsonString (toString tier.1) ++ ':' :: pushJsonString tier.2) =
      (pay.tiers.map fun tier => (toString tier.1, (Json.str tier.2 : Json Decimal))).map fun field =>
        Json.quote field.1 ++ ':' :: field.2.write Decimal.text := by
    rw [List.map_map]
    refine List.map_congr_left fun tier _ => ?_
    rw [pushJsonString_eq, pushJsonString_eq]
    rfl
  unfold payText CanonicalPay.json
  rw [htiers, stringList_eq, u64Text_eq hport, pushJsonString_eq, pushJsonString_eq, write_obj]
  cases pay.onion with
  | none =>
    simp only [Option.map_none, Option.toList_none, List.append_nil, List.cons_append, List.nil_append, List.map_cons,
      List.map_nil, commas, List.append_assoc, write_obj _ (pay.tiers.map _)]
    rfl
  | some onion =>
    simp only [Option.map_some, Option.toList_some, List.cons_append, List.nil_append, List.map_cons,
      List.map_nil, commas, List.append_assoc, pushJsonString_eq, write_obj _ (pay.tiers.map _)]
    rfl

lemma rateText_eq {rate : CanonicalRate} (hepoch : Plain rate.epochSeconds)
    (hprevious : Plain rate.previousEpochsAccepted) (hroot : Plain rate.rootFreshnessSeconds)
    (hbytes : Plain rate.payloadBytesPerSlot) :
    rateText rate = Json.quote "rate" ++ ':' :: rate.json.write Decimal.text := by
  unfold rateText CanonicalRate.json
  rw [u64Text_eq hepoch, u64Text_eq hprevious, u64Text_eq hroot, u64Text_eq hbytes, pushJsonString_eq,
    pushJsonString_eq, write_obj]
  simp only [List.map_cons, List.map_nil, commas, List.append_assoc, List.cons_append]
  rfl

/-- The text built by hand is the text that `JSON.stringify` writes for the block. -/
theorem canonicalCapsJson_eq {c : CanonicalCaps} (hports : ∀ ports ∈ c.ports, ∀ p ∈ ports, Plain p)
    (hproto : ∀ proto ∈ c.proto, Plain proto.1 ∧ Plain proto.2) (hpay : ∀ pay ∈ c.pay, Plain pay.port)
    (hrate : ∀ rate ∈ c.rate, Plain rate.epochSeconds ∧ Plain rate.previousEpochsAccepted ∧
      Plain rate.rootFreshnessSeconds ∧ Plain rate.payloadBytesPerSlot) :
    canonicalCapsJson c = c.json.write Decimal.text := by
  -- a field that is there is written alike on both sides
  have hfield : ∀ {α : Type} (o : Option α) (key : String) (json : α → Json Decimal) (text : α → List Char),
      (∀ a ∈ o, text a = Json.quote key ++ ':' :: (json a).write Decimal.text) →
      (o.map text).toList = ((o.map fun a => (key, json a)).toList.map fun field =>
        Json.quote field.1 ++ ':' :: field.2.write Decimal.text) := by
    intro α o key json text h
    cases o with
    | none => rfl
    | some a => exact congrArg (fun l => [l]) (h a rfl)
  unfold canonicalCapsJson CanonicalCaps.json
  rw [write_obj]
  simp only [List.map_append]
  rw [hfield c.ports "ports" (fun ports => .arr (ports.map Directory.numJson)) _ fun ports hmem => ?_,
    hfield c.region "region" .str _ fun region _ => ?_,
    hfield c.proto "proto" (fun proto => .obj [("min", Directory.numJson proto.1), ("max", Directory.numJson proto.2)]) _
      fun proto hmem => ?_,
    hfield c.artifacts "artifacts" (fun ids => .arr (ids.map .str)) _ fun ids _ => ?_,
    hfield c.admits "admits" (fun admits => .arr (admits.map .str)) _ fun admits _ => ?_,
    hfield c.pay "pay" CanonicalPay.json payText fun pay hmem => payText_eq (hpay pay hmem),
    hfield c.rate "rate" CanonicalRate.json rateText fun rate hmem => ?_]
  · obtain ⟨hepoch, hprevious, hroot, hbytes⟩ := hrate rate hmem
    exact rateText_eq hepoch hprevious hroot hbytes
  · rw [stringList_eq]
    rfl
  · rw [stringList_eq]
    rfl
  · obtain ⟨hmin, hmax⟩ := hproto proto hmem
    rw [u64Text_eq hmin, u64Text_eq hmax, write_obj]
    simp only [List.map_cons, List.map_nil, commas, List.append_assoc, List.cons_append]
    rfl
  · rw [pushJsonString_eq]
    rfl
  · have hmap : ports.map u64Text = (ports.map Directory.numJson).map (Json.write Decimal.text) := by
      rw [List.map_map]
      exact List.map_congr_left fun p hp => u64Text_eq (hports ports hmem p hp)
    rw [hmap, write_arr]
    simp only [List.append_assoc]
    rfl

end ShadeTree.Proto
