import Mathlib.Data.List.DropRight
import Mathlib.Data.Set.Function
import ShadeTree.Bootnode.Calls
import ShadeTree.Directory.Verify
import ShadeTree.Lib.OrderedMap

/-!
# The directory and its deltas (`directory` and `delta` in `bootnode/server.mjs`)

The bootnode signs the list of what is live and keeps, for the last versions it built, the text of each entry.  A
client that names the etag of a version is sent what changed since: the entries whose text is another one now, the
onions that went, and the order of all.  The client puts the directory together from the one it has.

The order of `live` and what the prober finds are any; so is the way a number is printed.
-/

namespace ShadeTree.Bootnode

open ShadeTree.Lib Directory

def hexDigits : List Char := "0123456789abcdef".toList

/-- What `digest("hex")` returns. -/
@[ext]
structure HexDigest where
  text : String
  hex : (text.toList.all fun c => c ∈ hexDigits) = true

structure ServerConfig extends RegistryConfig where
  deltaHistoryMax : ℕ
  /-- `signer.pub`. -/
  signerPub : String
  /-- `ed25519Sign(msg, signer.priv)`. -/
  sign : List Char → String
  sha256 : List Char → HexDigest
  /-- The number that is printed. -/
  number : ℚ → Number
  /-- The value that capabilities are. -/
  capsValue : String → Value

/-! ### What is served -/

/-- A directory that is signed. -/
structure ServedDirectory where
  issued : Number
  gateways : List Value
  signer : String
  signature : String

/-- `dir` before it is signed. -/
def unsignedFields (issued : Number) (gateways : List Value) (signer : String) : List (String × Value) :=
  [("version", .num (.fin (.ofInt 1))), ("issued", .num issued), ("gateways", .arr gateways), ("signer", .str signer)]

def ServedDirectory.json (dir : ServedDirectory) : Value :=
  .obj (unsignedFields dir.issued dir.gateways dir.signer ++ [("signature", .str dir.signature)])

/-- `g.onion`. -/
def onionOf (g : Value) : String := ((g.get "onion").bind Value.asString).getD ""

def ServedDirectory.onions (dir : ServedDirectory) : List String := dir.gateways.map onionOf

section Server

variable {T : Type} {K : Keys} (C : ServerConfig)

/-- An entry as `directory()` lists it; `down` are the onions the prober has found down. -/
def listing (down : String → Bool) (onion : String) (e : Entry K) : Value :=
  .obj ([("onion", .str onion), ("pubkey", .str (hexText e.checked.pubkey)), ("weight", .num (C.number e.weight)),
      ("health", .str (if down onion then "down" else "up"))] ++
    (match e.operator.filter (· ≠ "") with
      | some operator => [("operator", .str operator), ("staked", .bool e.staked)]
      | none => []) ++
    match e.checked.caps, e.capsSig.filter (· ≠ "") with
      | some caps, some capsSig => [("caps", C.capsValue caps), ("capsSig", .str capsSig)]
      | _, _ => [])

/-- `directory()` over entries in an order. -/
def directoryOf (clock : ℤ) (down : String → Bool) (entries : List (Sigma fun _ : String => Entry K)) :
    ServedDirectory :=
  let issued := C.number (now clock)
  let gateways := entries.map fun e => listing C down e.1 e.2
  { issued := issued
    gateways := gateways
    signer := C.signerPub
    -- the entries are objects, and their bytes are there
    signature := C.sign ((canonicalDirectoryBytes (.obj (unsignedFields issued gateways C.signerPub))).getD []) }

/-! ### Versions -/

/-- What `trim` removes. -/
def isSpace (c : Char) : Bool :=
  (9 ≤ c.toNat && c.toNat ≤ 13) || (0x2000 ≤ c.toNat && c.toNat ≤ 0x200a) ||
    c.toNat ∈ [0x20, 0xa0, 0x1680, 0x2028, 0x2029, 0x202f, 0x205f, 0x3000, 0xfeff]

def trim (s : List Char) : List Char := (s.dropWhile isSpace).rdropWhile isSpace

/-- `replace(/^"|"$/g, "")`. -/
def unquote (s : List Char) : List Char :=
  let s := if s.head? = some '"' then s.drop 1 else s
  if s.getLast? = some '"' then s.dropLast else s

def etagKey (e : Option String) : String :=
  Directory.toLowerCase (String.ofList (unquote (trim (e.getD "").toList)))

/-- `JSON.stringify(g)`. -/
def entryKey (g : Value) : List Char := Value.stringify g

/-- The text of each entry under its onion. -/
abbrev Version := OrderedMap String (List Char)

def versionOf (gateways : List Value) : Version := .ofList (gateways.map fun g => (onionOf g, entryKey g))

def recordVersion (etag : String) (gateways : List Value) (history : OrderedMap String Version) :
    OrderedMap String Version :=
  let key := etagKey (some etag)
  ((history.delete key).set key (versionOf gateways)).keepNewest C.deltaHistoryMax

def ServedDirectory.bytes (dir : ServedDirectory) : List Char := dir.json.stringify

def etagOf (dir : ServedDirectory) : String := "\"" ++ (C.sha256 dir.bytes).text ++ "\""

/-! ### Deltas -/

/-- What `delta` returns. -/
inductive Reply where
  | full (base : String)
  | delta (base since : String) (added : List Value) (removed : List String) (unchanged : ℤ) (current : ServedDirectory)

/-- The reply is not full. -/
def Reply.isDelta : Reply → Bool
  | .full _ => false
  | .delta .. => true

def reconstructMeta (dir : ServedDirectory) : Value :=
  .obj [("version", .num (.fin (.ofInt 1))), ("issued", .num dir.issued), ("signer", .str dir.signer),
    ("signature", .str dir.signature), ("order", .arr (dir.onions.map .str))]

def Reply.json : Reply → Value
  | .full base => .obj [("full", .bool true), ("base", .str base)]
  | .delta base since added removed unchanged current =>
    .obj [("base", .str base), ("since", .str since), ("added", .arr added), ("removed", .arr (removed.map .str)),
      ("unchanged", .num (.fin (.ofInt unchanged))), ("directory", reconstructMeta current)]

/-- `delta(sinceEtag)` once the current version is recorded. -/
def deltaOf (dir : ServedDirectory) (base : String) (history : OrderedMap String Version) (sinceEtag : Option String) :
    Reply :=
  let sinceKey := etagKey sinceEtag
  if sinceKey = "" then .full base
  else
    match history.get sinceKey with
    | none => .full base
    | some oldSet =>
      let added := dir.gateways.filter fun g => oldSet.get (onionOf g) ≠ some (entryKey g)
      let removed := oldSet.keys.filter fun onion => onion ∉ dir.onions
      .delta base (sinceEtag.getD "") added removed (dir.onions.dedup.length - added.length) dir

/-! ### Runs -/

/-- A bootnode with the versions it remembers. -/
structure Server (T : Type) (K : Keys) where
  system : System T K
  versionHistory : OrderedMap String Version

/-- A step of the registry, or a request that is answered. -/
inductive ServerEvent (T : Type) (K : Keys) where
  | registry (e : Event T K)
  | directory (dir : ServedDirectory) (etag : String)
  | delta (dir : ServedDirectory) (etag : String) (sinceEtag : Option String) (reply : Reply)

/-- The directory a step built, with its etag. -/
def ServerEvent.built {T : Type} {K : Keys} : ServerEvent T K → Option (ServedDirectory × String)
  | .registry _ => none
  | .directory dir etag | .delta dir etag _ _ => some (dir, etag)

/-- The state after `directoryWithEtag` built a directory. -/
def Server.withDirectory (s : Server T K) (dir : ServedDirectory) : Server T K where
  system := { s.system with registry := s.system.registry.sweep C.toRegistryConfig s.system.clock }
  versionHistory := recordVersion C (etagOf C dir) dir.gateways s.versionHistory

/-- The directory lists what is live, in some order. -/
def Server.Builds (s : Server T K) (dir : ServedDirectory) : Prop :=
  ∃ down entries, entries.Perm (s.system.registry.directory C.toRegistryConfig s.system.clock).entries ∧
    dir = directoryOf C s.system.clock down entries

inductive ServerStep [DecidableEq T] : Server T K → ServerEvent T K → Server T K → Prop where
  | registry {s : Server T K} {e : Event T K} {u : System T K} : Step C.toRegistryConfig s.system e u →
      ServerStep s (.registry e) { s with system := u }
  | directory {s : Server T K} {dir : ServedDirectory} : s.Builds C dir →
      ServerStep s (.directory dir (etagOf C dir)) (s.withDirectory C dir)
  | delta {s : Server T K} {dir : ServedDirectory} (sinceEtag : Option String) : s.Builds C dir →
      ServerStep s
        (.delta dir (etagOf C dir) sinceEtag
          (deltaOf dir (etagOf C dir) (s.withDirectory C dir).versionHistory sinceEtag))
        (s.withDirectory C dir)

def Server.start (clock : ℤ) : Server T K := ⟨.start C.toRegistryConfig clock, .empty⟩

end Server

/-! ### The client -/

/-- An entry under its onion. -/
def keyed (g : Value) : Option (String × Value) := ((g.get "onion").bind Value.asString).map fun onion => (onion, g)

/-- `reconstruct` in `directory-delta.selftest.mjs`; `none` also where it throws.  Onions that are no strings are
left out. -/
def reconstruct (cachedBaseDir delta : Value) : Option Value := do
  let cached ← (cachedBaseDir.get "gateways").bind Value.asArray
  let added ← (delta.get "added").bind Value.asArray
  let directory ← delta.get "directory"
  let order ← (directory.get "order").bind Value.asArray
  let byOnion := OrderedMap.ofList ((cached ++ added).filterMap keyed)
  let gateways ← order.mapM fun onion => (onion.asString.bind fun onion => byOnion.get onion).filter Value.truthy
  let version ← directory.get "version"
  let issued ← directory.get "issued"
  let signer ← directory.get "signer"
  let signature ← directory.get "signature"
  return .obj [("version", version), ("issued", issued), ("gateways", .arr gateways), ("signer", signer),
    ("signature", signature)]

/-! ### What a directory is -/

section Listing

variable {T : Type} {K : Keys} (C : ServerConfig)

lemma get_listing (down : String → Bool) (onion : String) (e : Entry K) :
    (listing C down onion e).get "onion" = some (.str onion) := by
  unfold listing
  cases e.operator.filter (· ≠ "") <;> cases e.checked.caps <;> cases e.capsSig.filter (· ≠ "") <;> rfl

lemma onionOf_listing (down : String → Bool) (onion : String) (e : Entry K) :
    onionOf (listing C down onion e) = onion := by
  unfold onionOf
  rw [get_listing]
  rfl

lemma trim_quotes (s : List Char) : trim ('"' :: (s ++ ['"'])) = '"' :: (s ++ ['"']) := by
  unfold trim
  rw [List.dropWhile_cons_of_neg (by decide), ← List.cons_append, List.rdropWhile_concat_neg _ _ _ (by decide)]

lemma unquote_quotes (s : List Char) : unquote ('"' :: (s ++ ['"'])) = s := by
  simp [unquote]

lemma toLowerCase_hex {s : String} (h : (s.toList.all fun c => c ∈ hexDigits) = true) :
    Directory.toLowerCase s = s := by
  have hdigits : (hexDigits.all fun c => toLowerCase c = [c]) = true := by decide
  have hflat : ∀ l : List Char, (l.all fun c => c ∈ hexDigits) = true → l.flatMap toLowerCase = l := by
    intro l hl
    induction l with
    | nil => rfl
    | cons c l ih =>
      rw [List.all_cons, Bool.and_eq_true] at hl
      have hchar : toLowerCase c = [c] := of_decide_eq_true (List.all_eq_true.mp hdigits c (of_decide_eq_true hl.1))
      rw [List.flatMap_cons, hchar, ih hl.2]
      rfl
  unfold Directory.toLowerCase
  rw [hflat _ h, String.ofList_toList]

/-- The key of an etag is the digest in it. -/
lemma etagKey_etagOf (dir : ServedDirectory) : etagKey (some (etagOf C dir)) = (C.sha256 dir.bytes).text := by
  have htext : (etagOf C dir).toList = '"' :: ((C.sha256 dir.bytes).text.toList ++ ['"']) := by
    simp [etagOf]
  unfold etagKey
  rw [Option.getD_some, htext, trim_quotes, unquote_quotes, String.ofList_toList,
    toLowerCase_hex (C.sha256 dir.bytes).hex]

/-! ### What is listed -/

/-- The entries are objects under onions that differ. -/
structure Listed (gateways : List Value) : Prop where
  nodup : (gateways.map onionOf).Nodup
  obj : ∀ g ∈ gateways, ∃ fields, g = .obj fields
  onion : ∀ g ∈ gateways, g.get "onion" = some (.str (onionOf g))

variable {C} {s : Server T K} {dir : ServedDirectory}

lemma Server.Builds.listed (h : s.Builds C dir) : Listed dir.gateways := by
  obtain ⟨down, entries, hperm, rfl⟩ := h
  have honions : (entries.map fun e => listing C down e.1 e.2).map onionOf = entries.map Sigma.fst := by
    rw [List.map_map]
    exact List.map_congr_left fun e _ => onionOf_listing C down e.1 e.2
  refine ⟨?_, fun g hg => ?_, fun g hg => ?_⟩
  · change ((entries.map fun e => listing C down e.1 e.2).map onionOf).Nodup
    rw [honions]
    exact (hperm.map Sigma.fst).nodup_iff.mpr (AList.keys_nodup _)
  · obtain ⟨e, -, rfl⟩ := List.mem_map.mp hg
    exact ⟨_, rfl⟩
  · obtain ⟨e, -, rfl⟩ := List.mem_map.mp hg
    rw [get_listing, onionOf_listing]

/-- The signature is over the bytes of the directory as a client reads it. -/
lemma Server.Builds.signed (h : s.Builds C dir) : ∃ bytes, canonicalDirectoryBytes dir.json.wire = some bytes ∧
    dir.signature = C.sign bytes := by
  have hobj := h.listed.obj
  have hgateways : dir.json.get "gateways" = some (.arr dir.gateways) := rfl
  obtain ⟨bytes, hbytes⟩ := canonicalDirectoryBytes_some hgateways hobj
  rw [canonicalDirectoryBytes_wire hgateways hobj]
  refine ⟨bytes, hbytes, ?_⟩
  obtain ⟨down, entries, hperm, rfl⟩ := h
  have hunsigned : canonicalDirectoryBytes (.obj (unsignedFields (C.number (now s.system.clock))
      (entries.map fun e => listing C down e.1 e.2) C.signerPub)) = some bytes := hbytes
  unfold directoryOf
  simp only [hunsigned, Option.getD_some]

end Listing

/-! ### What a client puts together -/

section Reconstruct

variable {old current : List Value} {g : Value} {onion : String}

lemma onionOf_wire (g : Value) : onionOf g.wire = onionOf g := by
  unfold onionOf
  rw [Value.get_wire, bind_map_wire Value.asString_wire]

lemma Listed.keyed_wire (h : Listed old) (hg : g ∈ old) : keyed g.wire = some (onionOf g, g.wire) := by
  unfold keyed
  rw [Value.get_wire, h.onion g hg]
  rfl

lemma Listed.truthy_wire (h : Listed old) (hg : g ∈ old) : Value.truthy g.wire = true := by
  obtain ⟨fields, rfl⟩ := h.obj g hg
  rw [Value.wire_obj]
  rfl

lemma Listed.eq_of_onion (h : Listed old) {g' : Value} (hg : g ∈ old) (hg' : g' ∈ old) (honion : onionOf g = onionOf g') :
    g = g' :=
  List.inj_on_of_nodup_map h.nodup hg hg' honion

lemma Listed.filter (h : Listed old) (p : Value → Bool) : Listed (old.filter p) where
  nodup := h.nodup.sublist (List.filter_sublist.map onionOf)
  obj g hg := h.obj g (List.mem_of_mem_filter hg)
  onion g hg := h.onion g (List.mem_of_mem_filter hg)

/-- The entries under their onions, as they are read from their text. -/
lemma Listed.filterMap_keyed (h : Listed old) :
    (old.map Value.wire).filterMap keyed = old.map fun g => (onionOf g, g.wire) := by
  rw [List.filterMap_map, ← List.filterMap_eq_map]
  exact List.filterMap_congr fun g hg => h.keyed_wire hg

/-- The map of a list of entries finds each of them. -/
lemma Listed.get_ofList (h : Listed old) {V : Type} {f : Value → V} {v : V} :
    (OrderedMap.ofList (old.map fun g => (onionOf g, f g))).get onion = some v ↔
      ∃ g ∈ old, onionOf g = onion ∧ f g = v := by
  have hnodup : ((old.map fun g => (onionOf g, f g)).map Prod.fst).Nodup := by
    rw [List.map_map]
    exact h.nodup
  rw [OrderedMap.get_eq_some, OrderedMap.entries_ofList hnodup]
  simp only [List.mem_map, Prod.mk.injEq]

lemma Listed.get_versionOf (h : Listed old) {text : List Char} :
    (versionOf old).get onion = some text ↔ ∃ g ∈ old, onionOf g = onion ∧ entryKey g = text :=
  h.get_ofList

lemma Listed.keys_versionOf (h : Listed old) : (versionOf old).keys = old.map onionOf := by
  have hnodup : ((old.map fun g => (onionOf g, entryKey g)).map Prod.fst).Nodup := by
    rw [List.map_map]
    exact h.nodup
  unfold versionOf OrderedMap.keys
  rw [OrderedMap.entries_ofList hnodup, List.map_map]
  rfl

/-- An entry has its text in a version if and only if a client of that version has it. -/
lemma Listed.get_versionOf_entryKey (h : Listed old) (g : Value) :
    (versionOf old).get (onionOf g) = some (entryKey g) ↔ g.wire ∈ old.map Value.wire := by
  rw [h.get_versionOf, List.mem_map]
  constructor
  · rintro ⟨o, ho, -, htext⟩
    exact ⟨o, ho, Value.wire_eq_of_stringify htext⟩
  · rintro ⟨o, ho, hwire⟩
    refine ⟨o, ho, ?_, ?_⟩
    · rw [← onionOf_wire o, hwire, onionOf_wire]
    · unfold entryKey
      rw [← Value.stringify_wire o, hwire, Value.stringify_wire]

/-- The entries that a delta ships. -/
def shipped (old current : List Value) : List Value :=
  current.filter fun g => (versionOf old).get (onionOf g) ≠ some (entryKey g)

/-- The client finds every entry, in what it has or in what is shipped. -/
lemma Listed.lookup (hold : Listed old) (hcurrent : Listed current) (hg : g ∈ current) :
    (OrderedMap.ofList (((old.map Value.wire) ++ (shipped old current).map Value.wire).filterMap keyed)).get (onionOf g) =
      some g.wire := by
  have hshipped : Listed (shipped old current) := hcurrent.filter _
  rw [List.filterMap_append, hold.filterMap_keyed, hshipped.filterMap_keyed, OrderedMap.get_ofList_append]
  by_cases hmem : g ∈ shipped old current
  · rw [hshipped.get_ofList.mpr ⟨g, hmem, rfl, rfl⟩]
    rfl
  · have hnone : (OrderedMap.ofList ((shipped old current).map fun g => (onionOf g, g.wire))).get (onionOf g) = none := by
      rw [Option.eq_none_iff_forall_ne_some]
      intro v hv
      obtain ⟨g', hg', honion, -⟩ := hshipped.get_ofList.mp hv
      obtain rfl := hcurrent.eq_of_onion (List.mem_of_mem_filter hg') hg honion
      exact hmem hg'
    have hkept : (versionOf old).get (onionOf g) = some (entryKey g) := by
      by_contra hne
      exact hmem (List.mem_filter.mpr ⟨hg, decide_eq_true hne⟩)
    obtain ⟨o, ho, honion, htext⟩ := hold.get_versionOf.mp hkept
    rw [hnone, Option.none_or, hold.get_ofList]
    exact ⟨o, ho, honion, Value.wire_eq_of_stringify htext⟩

end Reconstruct

/-! ### What a delta says -/

section Delta

variable {old current : ServedDirectory}

/-- What a delta says of two directories; `kept` are the entries that a client has. -/
structure Exact (old current : ServedDirectory) (added kept : List Value) (removed : List String) : Prop where
  order : added.Sublist current.gateways
  parts : (added ++ kept).Perm current.gateways
  new : ∀ g ∈ added, g.wire ∉ old.gateways.map Value.wire
  had : ∀ g ∈ kept, g.wire ∈ old.gateways.map Value.wire
  gone : removed = old.onions.filter fun onion => onion ∉ current.onions
  disjoint : (added.map onionOf ++ kept.map onionOf ++ removed).Nodup

/-- A delta leads from the directory a client has to the current one. -/
def Reply.Leads (old current : ServedDirectory) : Reply → Prop
  | .full _ => True
  | .delta base since added removed unchanged dir =>
    reconstruct old.json.wire (Reply.delta base since added removed unchanged dir).json.wire = some current.json.wire ∧
    ∃ kept : List Value, unchanged = kept.length ∧ Exact old current added kept removed

lemma mapM_some {α β γ : Type} {f : β → Option γ} {g : α → β} {k : α → γ} {l : List α} (h : ∀ a ∈ l, f (g a) = some (k a)) :
    (l.map g).mapM f = some (l.map k) := by
  induction l with
  | nil => rfl
  | cons a l ih =>
    rw [List.map_cons, List.mapM_cons, h a List.mem_cons_self, ih fun b hb => h b (List.mem_cons_of_mem _ hb)]
    rfl

theorem reconstruct_eq (hold : Listed old.gateways) (hcurrent : Listed current.gateways) (base since : String)
    (removed : List String) (unchanged : ℤ) :
    reconstruct old.json.wire (Reply.delta base since (shipped old.gateways current.gateways) removed unchanged
      current).json.wire = some current.json.wire := by
  have hlookup : (current.onions.map Json.str).mapM (fun onion : Value => (onion.asString.bind fun onion =>
      (OrderedMap.ofList (((old.gateways.map Value.wire) ++
        (shipped old.gateways current.gateways).map Value.wire).filterMap keyed)).get onion).filter Value.truthy) =
      some (current.gateways.map Value.wire) := by
    unfold ServedDirectory.onions
    rw [List.map_map]
    refine mapM_some fun g hg => ?_
    simp only [Function.comp_apply, Value.asString, Option.bind_some]
    rw [hold.lookup hcurrent hg, Option.filter_some, if_pos (hcurrent.truthy_wire hg)]
  have harr : ∀ {v : Value} {key : String} {items : List Value}, v.get key = some (.arr items) →
      (v.wire.get key).bind Value.asArray = some (items.map Value.wire) := by
    intro v key items hv
    rw [Value.get_wire, hv, Option.map_some, Option.bind_some, Value.wire_arr]
    rfl
  have hcached : (old.json.wire.get "gateways").bind Value.asArray = some (old.gateways.map Value.wire) := harr rfl
  generalize hdelta : (Reply.delta base since (shipped old.gateways current.gateways) removed unchanged current).json = delta
  have hadded : (delta.wire.get "added").bind Value.asArray =
      some ((shipped old.gateways current.gateways).map Value.wire) := by
    subst hdelta
    exact harr rfl
  have hdirectory : delta.wire.get "directory" = some (reconstructMeta current).wire := by
    subst hdelta
    rw [Value.get_wire]
    rfl
  have horder : ((reconstructMeta current).wire.get "order").bind Value.asArray = some (current.onions.map .str) := by
    have hmap : (current.onions.map Json.str).map Value.wire = current.onions.map Json.str := by
      rw [List.map_map]
      exact List.map_congr_left fun onion _ => rfl
    rw [← hmap]
    exact harr rfl
  have hfield : ∀ key, (reconstructMeta current).wire.get key = ((reconstructMeta current).get key).map Value.wire :=
    fun key => Value.get_wire key _
  unfold reconstruct
  simp only [hcached, hadded, hdirectory, horder, Option.bind_eq_bind, Option.bind_some, hlookup]
  simp only [hfield]
  unfold ServedDirectory.json
  rw [Value.wire_obj]
  simp only [unsignedFields, List.cons_append, List.nil_append, List.map_cons, List.map_nil, Value.wire_arr]
  rfl

lemma exact_of_shipped (hold : Listed old.gateways) (hcurrent : Listed current.gateways) :
    ∃ kept : List Value, ((current.onions.dedup.length : ℤ) - (shipped old.gateways current.gateways).length) = kept.length ∧
      Exact old current (shipped old.gateways current.gateways) kept
        ((versionOf old.gateways).keys.filter fun onion => onion ∉ current.onions) := by
  have hparts : (shipped old.gateways current.gateways ++ current.gateways.filter fun g =>
      !decide ((versionOf old.gateways).get (onionOf g) ≠ some (entryKey g))).Perm current.gateways :=
    List.filter_append_perm _ _
  refine ⟨_, ?_, List.filter_sublist, hparts, fun g hg => ?_, fun g hg => ?_, ?_, ?_⟩
  · have hlen := hparts.length_eq
    rw [List.length_append] at hlen
    have hdedup : current.onions.dedup = current.onions := hcurrent.nodup.dedup
    have honions : current.onions.length = current.gateways.length := List.length_map ..
    rw [hdedup, honions]
    omega
  · have hne := of_decide_eq_true (List.mem_filter.mp hg).2
    rwa [← hold.get_versionOf_entryKey]
  · have heq := (List.mem_filter.mp hg).2
    rw [← hold.get_versionOf_entryKey]
    simpa using heq
  · rw [hold.keys_versionOf]
    rfl
  · rw [← List.map_append]
    refine ((hparts.map onionOf).nodup_iff.mpr hcurrent.nodup).append ?_ ?_
    · rw [hold.keys_versionOf]
      exact hold.nodup.filter _
    · intro onion hmem hgone
      have hcur : onion ∈ current.onions := (hparts.map onionOf).mem_iff.mp hmem
      exact of_decide_eq_true (List.mem_filter.mp hgone).2 hcur

end Delta

/-! ### Runs of deltas -/

section Runs

variable {T : Type} {K : Keys}

/-- A step of the run built the directory. -/
def Built (tr : List (ServerEvent T K)) (dir : ServedDirectory) (etag : String) : Prop :=
  ∃ e ∈ tr, e.built = some (dir, etag)

/-- The texts of the directories that were built. -/
def builtBytes (tr : List (ServerEvent T K)) : Set (List Char) := {bytes | ∃ dir etag, Built tr dir etag ∧ bytes = dir.bytes}

/-- Every directory that was built has its etag, and what is remembered is a version of one of them. -/
structure Remembers (C : ServerConfig) (tr : List (ServerEvent T K)) (s : Server T K) : Prop where
  built : ∀ dir etag, Built tr dir etag → etag = etagOf C dir ∧ Listed dir.gateways
  version : ∀ key version, s.versionHistory.get key = some version → ∃ dir, Built tr dir (etagOf C dir) ∧
    key = etagKey (some (etagOf C dir)) ∧ version = versionOf dir.gateways

variable {C : ServerConfig} {tr tr' : List (ServerEvent T K)} {s u : Server T K} {e : ServerEvent T K}
  {dir : ServedDirectory} {etag : String}

lemma Built.append_left (h : Built tr dir etag) : Built (tr ++ tr') dir etag := by
  obtain ⟨e, he, hbuilt⟩ := h
  exact ⟨e, List.mem_append_left tr' he, hbuilt⟩

lemma built_append_singleton : Built (tr ++ [e]) dir etag ↔ Built tr dir etag ∨ e.built = some (dir, etag) := by
  unfold Built
  simp only [List.mem_append, List.mem_singleton]
  constructor
  · rintro ⟨e', he' | rfl, hbuilt⟩
    · exact .inl ⟨e', he', hbuilt⟩
    · exact .inr hbuilt
  · rintro (⟨e', he', hbuilt⟩ | hbuilt)
    · exact ⟨e', .inl he', hbuilt⟩
    · exact ⟨e, .inr rfl, hbuilt⟩

lemma get_recordVersion {gateways : List Value} {history : OrderedMap String Version} {key : String} {version : Version}
    (h : (recordVersion C etag gateways history).get key = some version) :
    key = etagKey (some etag) ∧ version = versionOf gateways ∨ history.get key = some version := by
  have hset := OrderedMap.get_of_keepNewest h
  by_cases hkey : key = etagKey (some etag)
  · subst hkey
    rw [OrderedMap.get_set_self] at hset
    exact .inl ⟨rfl, (Option.some.inj hset).symm⟩
  · rw [OrderedMap.get_set_of_ne hkey] at hset
    exact .inr (OrderedMap.get_of_delete hset)

/-- A directory that is built is remembered. -/
lemma Remembers.withDirectory (h : Remembers C tr s) (hbuilds : s.Builds C dir) (he : e.built = some (dir, etagOf C dir)) :
    Remembers C (tr ++ [e]) (s.withDirectory C dir) := by
  have hnew : Built (tr ++ [e]) dir (etagOf C dir) := built_append_singleton.mpr (.inr he)
  refine ⟨fun dir' etag' hbuilt => ?_, fun key version hget => ?_⟩
  · rcases built_append_singleton.mp hbuilt with hold | hlast
    · exact h.built dir' etag' hold
    · obtain ⟨rfl, rfl⟩ := Prod.mk.inj (Option.some.inj (he.symm.trans hlast))
      exact ⟨rfl, hbuilds.listed⟩
  · rcases get_recordVersion hget with ⟨hkey, hversion⟩ | hold
    · exact ⟨dir, hnew, hkey, hversion⟩
    · obtain ⟨old, hbuilt, hkey, hversion⟩ := h.version key version hold
      exact ⟨old, hbuilt.append_left, hkey, hversion⟩

/-- Directories with one etag have one version. -/
lemma version_eq (hsha : Set.InjOn C.sha256 (builtBytes tr)) (hr : Remembers C tr s) {old old' : ServedDirectory}
    {etag etag' : String} (hold : Built tr old etag) (hold' : Built tr old' etag')
    (hkey : etagKey (some etag) = etagKey (some etag')) : versionOf old.gateways = versionOf old'.gateways := by
  obtain ⟨rfl, -⟩ := hr.built old etag hold
  obtain ⟨rfl, -⟩ := hr.built old' etag' hold'
  rw [etagKey_etagOf, etagKey_etagOf] at hkey
  have hdigest : C.sha256 old.bytes = C.sha256 old'.bytes := HexDigest.ext hkey
  have hbytes : old.bytes = old'.bytes := hsha ⟨old, _, hold, rfl⟩ ⟨old', _, hold', rfl⟩ hdigest
  have hjson : old.json.wire = old'.json.wire := Value.wire_eq_of_stringify hbytes
  have hgateways : old.gateways.map Value.wire = old'.gateways.map Value.wire := by
    have harr : ∀ dir : ServedDirectory, (dir.json.wire.get "gateways").bind Value.asArray =
        some (dir.gateways.map Value.wire) := by
      intro dir
      rw [Value.get_wire]
      exact Value.asArray_wire (.arr dir.gateways)
    have hget := congrArg (fun v : Value => (v.get "gateways").bind Value.asArray) hjson
    simpa only [harr, Option.some.injEq] using hget
  unfold versionOf
  have hpairs : ∀ gateways : List Value, gateways.map (fun g => (onionOf g, entryKey g)) =
      (gateways.map Value.wire).map fun g => (onionOf g, entryKey g) := by
    intro gateways
    rw [List.map_map]
    refine List.map_congr_left fun g _ => ?_
    simp only [Function.comp_apply, onionOf_wire, entryKey, Value.stringify_wire]
  rw [hpairs, hgateways, ← hpairs]

variable [DecidableEq T]

lemma Remembers.step (h : Remembers C tr s) (hst : ServerStep C s e u) : Remembers C (tr ++ [e]) u := by
  cases hst with
  | registry hst =>
    refine ⟨fun dir etag hbuilt => ?_, fun key version hget => ?_⟩
    · rcases built_append_singleton.mp hbuilt with hold | hlast
      · exact h.built dir etag hold
      · cases hlast
    · obtain ⟨old, hbuilt, hkey, hversion⟩ := h.version key version hget
      exact ⟨old, hbuilt.append_left, hkey, hversion⟩
  | directory hbuilds => exact h.withDirectory hbuilds rfl
  | delta sinceEtag hbuilds => exact h.withDirectory hbuilds rfl

lemma remembers {clock : ℤ} (h : Run (ServerStep C) (Server.start C clock) tr s) : Remembers C tr s := by
  refine h.invariant (I := Remembers C) ⟨?_, ?_⟩ fun tr s e u _ hr hst => hr.step hst
  · rintro dir etag ⟨e, he, -⟩
    cases he
  · intro key version hget
    cases hget

lemma ServerStep.of_delta {current : ServedDirectory} {base : String} {sinceEtag : Option String} {reply : Reply}
    (hst : ServerStep C s (.delta current base sinceEtag reply) u) : s.Builds C current ∧
      base = etagOf C current ∧ reply = deltaOf current base u.versionHistory sinceEtag := by
  cases hst with
  | delta since hbuilds => exact ⟨hbuilds, rfl, rfl⟩

/-- The reply is a version of what is remembered, told apart from the current directory. -/
lemma deltaOf_cases (current : ServedDirectory) (base : String) (history : OrderedMap String Version)
    (sinceEtag : Option String) : deltaOf current base history sinceEtag = .full base ∨
      ∃ version, history.get (etagKey sinceEtag) = some version ∧
        deltaOf current base history sinceEtag = .delta base (sinceEtag.getD "")
          (current.gateways.filter fun g => version.get (onionOf g) ≠ some (entryKey g))
          (version.keys.filter fun onion => onion ∉ current.onions)
          (current.onions.dedup.length -
            (current.gateways.filter fun g => version.get (onionOf g) ≠ some (entryKey g)).length) current := by
  unfold deltaOf
  dsimp only
  by_cases hempty : etagKey sinceEtag = ""
  · rw [if_pos hempty]
    exact .inl rfl
  · rw [if_neg hempty]
    cases hget : history.get (etagKey sinceEtag) with
    | none => exact .inl rfl
    | some version => exact .inr ⟨version, rfl, rfl⟩

/-- **Deltas.** In every run a reply is full, or it leads from every directory that was built under the etag to the
current one, whose signature is over the bytes of what the client puts together. -/
theorem delta_leads_to_current (C : ServerConfig) (clock : ℤ) (h : Run (ServerStep C) (Server.start C clock) tr s)
    (hsha : Set.InjOn C.sha256 (builtBytes tr)) (tr₁ tr₂ : List (ServerEvent T K)) (current : ServedDirectory)
    (base : String) (sinceEtag : Option String) (reply : Reply)
    (htr : tr = tr₁ ++ .delta current base sinceEtag reply :: tr₂) :
    reply = .full base ∨
    (∃ bytes, canonicalDirectoryBytes current.json.wire = some bytes ∧ current.signature = C.sign bytes) ∧
    (∃ old etag, Built (tr₁ ++ [.delta current base sinceEtag reply]) old etag ∧ etagKey (some etag) = etagKey sinceEtag) ∧
    ∀ old etag, Built (tr₁ ++ [.delta current base sinceEtag reply]) old etag →
      etagKey (some etag) = etagKey sinceEtag → reply.Leads old current := by
  subst htr
  obtain ⟨v, hrun₁, hrun₂⟩ := h.split
  obtain ⟨w, hst, -⟩ := hrun₂.uncons
  have hremembers := remembers (hrun₁.snoc hst)
  have hinj : Set.InjOn C.sha256 (builtBytes (tr₁ ++ [ServerEvent.delta current base sinceEtag reply])) := by
    refine hsha.mono ?_
    rintro bytes ⟨dir, etag, hbuilt, rfl⟩
    refine ⟨dir, etag, ?_, rfl⟩
    rw [List.append_cons]
    exact hbuilt.append_left
  generalize hlast : tr₁ ++ [ServerEvent.delta current base sinceEtag reply] = past at hremembers hinj ⊢
  obtain ⟨hbuilds, -, hreply⟩ := hst.of_delta
  rcases deltaOf_cases current base w.versionHistory sinceEtag with hfull | ⟨version, hget, hdelta⟩
  · exact .inl (hreply.trans hfull)
  refine .inr ⟨hbuilds.signed, ?_, fun old etag hbuilt hkey => ?_⟩
  · obtain ⟨old, hbuilt, hkey, -⟩ := hremembers.version _ _ hget
    exact ⟨old, _, hbuilt, hkey.symm⟩
  obtain ⟨first, hfirst, hfirstKey, rfl⟩ := hremembers.version _ _ hget
  have hversion := version_eq hinj hremembers hfirst hbuilt (hfirstKey.symm.trans hkey.symm)
  rw [hversion] at hdelta
  have hold := (hremembers.built old etag hbuilt).2
  rw [hreply, hdelta]
  exact ⟨reconstruct_eq hold hbuilds.listed _ _ _ _, exact_of_shipped hold hbuilds.listed⟩

end Runs

/-! ### A gateway that announces itself between two requests -/

section Sample

/-- The digest of the empty directory, and of the one with a gateway. -/
def emptyDigest : HexDigest := ⟨"fc5a5b9bb03fbd1597b4485ba6c261a5c13e711013d27fb2348b390d1d084e47", by decide⟩

def announcedDigest : HexDigest := ⟨"88b413abe12b93cc67da887c9f7ac57b13d445763b7d9e41405bf9deaf2227c4", by decide⟩

/-- A bootnode with the key whose seed is all zeros; the signatures and digests are those of the empty directory and
of the one below. -/
def sampleServer : ServerConfig where
  toRegistryConfig := openConfig 10
  deltaHistoryMax := 64
  signerPub := "3b6a27bcceb6a42d62a3a8d02a6f0d73653215771de243a63ac048a18b59da29"
  sign bytes :=
    if bytes = "\x7b\"version\":1,\"issued\":0,\"gateways\":[]\x7d".toList then
      "554ddd059a0ef90f1cd8436c21cfbc3fb6188adb6d746e5841ae679d7e53157fc34e65bd165613c5336f9d5e1e4d6897136debbc18acace63f490d3d97d32a08"
    else
      "949ada0cd85f9b0065e39ec4d5388aeb76643c123f9c75bd7bfe9e4b47bd9226162798557853d56c4d9e57139f133a9c45843d0ff7d01478224b874f6724ee02"
  sha256 bytes := if bytes.length = 257 then emptyDigest else announcedDigest
  number q := .fin (.ofInt q.floor)
  capsValue _ := .null

lemma sampleServer_sha256 (bytes : List Char) :
    sampleServer.sha256 bytes = if bytes.length = 257 then emptyDigest else announcedDigest := rfl

/-- The directory before a gateway announced itself. -/
def emptyDirectory : ServedDirectory := directoryOf (K := signedKeys) sampleServer 0 (fun _ => false) []

/-- The registry takes its steps in the server. -/
lemma server_run_of_run {T : Type} [DecidableEq T] {K : Keys} {C : ServerConfig} {s u : System T K}
    {tr : List (Event T K)} {history : OrderedMap String Version} (h : Run (Step C.toRegistryConfig) s tr u) :
    Run (ServerStep C) ⟨s, history⟩ (tr.map .registry) ⟨u, history⟩ := by
  induction h with
  | nil => exact .nil
  | snoc hrun hst ih =>
    rw [List.map_append, List.map_singleton]
    exact ih.snoc (.registry hst)

/-- The bootnode after a client fetched it. -/
def fetchedOnce : Server ℕ signedKeys := (Server.start sampleServer 0).withDirectory sampleServer emptyDirectory

/-- The directory at the end of a run of the registry. -/
def directoryAt (u : System ℕ signedKeys) : ServedDirectory :=
  directoryOf sampleServer u.clock (fun _ => false) (u.registry.directory (openConfig 10) u.clock).entries

/-- The delta since the empty directory. -/
def replyAt (u : System ℕ signedKeys) : Reply :=
  deltaOf (directoryAt u) (etagOf sampleServer (directoryAt u))
    ((Server.mk u fetchedOnce.versionHistory).withDirectory sampleServer (directoryAt u)).versionHistory
    (some (etagOf sampleServer emptyDirectory))

/-- The directory is fetched, the registry runs, and the delta is asked for. -/
def deltaTrace (tr : List (Event ℕ signedKeys)) (u : System ℕ signedKeys) : List (ServerEvent ℕ signedKeys) :=
  .directory emptyDirectory (etagOf sampleServer emptyDirectory) :: tr.map .registry ++
    [.delta (directoryAt u) (etagOf sampleServer (directoryAt u)) (some (etagOf sampleServer emptyDirectory)) (replyAt u)]

/-- A gateway announces itself after a client fetched the directory, and is the delta since. -/
theorem delta_leads_to_current_announced : ∃ (tr : List (ServerEvent ℕ signedKeys)) (s : Server ℕ signedKeys)
    (current : ServedDirectory) (base : String) (reply : Reply),
    Run (ServerStep sampleServer) (Server.start sampleServer 0) tr s ∧
    ServerEvent.delta current base (some (etagOf sampleServer emptyDirectory)) reply ∈ tr ∧ reply ≠ .full base ∧
    current.onions = [zeroOnion] ∧ reply.Leads emptyDirectory current := by
  obtain ⟨tr, u, hrun, honions, hlen, hdelta⟩ := System.exists_run (openConfig 10) fetchedOnce.system (fun _ _ => True)
    [.announce 0 (some (plainRecord zeroOnion 60 "n")), .write 0]
    (fun _ u => (directoryAt u).onions = [zeroOnion] ∧ (directoryAt u).bytes.length ≠ 257 ∧ (replyAt u).isDelta = true)
    (by decide +kernel)
  have hempty : (Server.start sampleServer 0 : Server ℕ signedKeys).Builds sampleServer emptyDirectory :=
    ⟨fun _ => false, [], List.Perm.refl _, rfl⟩
  have hbuilds : (Server.mk u fetchedOnce.versionHistory).Builds sampleServer (directoryAt u) :=
    ⟨fun _ => false, _, List.Perm.refl _, rfl⟩
  have hall : Run (ServerStep sampleServer) (Server.start sampleServer 0) (deltaTrace tr u) _ :=
    (Run.cons (.directory hempty) (server_run_of_run hrun.forget)).snoc
      (.delta (some (etagOf sampleServer emptyDirectory)) hbuilds)
  have hbytes : ∀ dir etag, Built (deltaTrace tr u) dir etag → dir = emptyDirectory ∨ dir = directoryAt u := by
    rintro dir etag ⟨e, he, hbuilt⟩
    unfold deltaTrace at he
    rw [List.mem_append, List.mem_cons, List.mem_map, List.mem_singleton] at he
    rcases he with (rfl | ⟨e', -, rfl⟩) | rfl
    · exact .inl (Prod.mk.inj (Option.some.inj hbuilt)).1.symm
    · cases hbuilt
    · exact .inr (Prod.mk.inj (Option.some.inj hbuilt)).1.symm
  have hfirst : emptyDirectory.bytes.length = 257 := by decide +kernel
  have hsha : Set.InjOn sampleServer.sha256 (builtBytes (deltaTrace tr u)) := by
    have hne : sampleServer.sha256 emptyDirectory.bytes ≠ sampleServer.sha256 (directoryAt u).bytes := by
      rw [sampleServer_sha256, sampleServer_sha256, if_pos hfirst, if_neg hlen]
      exact fun h => absurd (congrArg HexDigest.text h) (by decide)
    rintro x ⟨dir, etag, hdir, rfl⟩ y ⟨dir', etag', hdir', rfl⟩ heq
    rcases hbytes dir etag hdir with rfl | rfl <;> rcases hbytes dir' etag' hdir' with rfl | rfl
    · rfl
    · exact absurd heq hne
    · exact absurd heq.symm hne
    · rfl
  have hbuilt : Built (deltaTrace tr u) emptyDirectory (etagOf sampleServer emptyDirectory) :=
    ⟨_, List.mem_append_left _ List.mem_cons_self, rfl⟩
  have hnotFull : ∀ base, replyAt u ≠ .full base := by
    intro base hfull
    rw [hfull] at hdelta
    cases hdelta
  obtain ⟨past, htr⟩ : ∃ past, deltaTrace tr u = past ++ [.delta (directoryAt u) (etagOf sampleServer (directoryAt u))
    (some (etagOf sampleServer emptyDirectory)) (replyAt u)] := ⟨_, rfl⟩
  rcases delta_leads_to_current sampleServer 0 hall hsha past [] _ _ _ _ htr with hfull | ⟨-, -, hleads⟩
  · exact absurd hfull (hnotFull _)
  · rw [htr] at hbuilt hall
    generalize replyAt u = reply at hbuilt hall hleads hnotFull
    exact ⟨_, _, _, _, _, hall, List.mem_append_right _ (List.mem_singleton_self _), hnotFull _, honions,
      hleads _ _ hbuilt rfl⟩

end Sample

end ShadeTree.Bootnode
