import Mathlib.Tactic.IntervalCases
import ShadeTree.Bootnode.OnionCodec
import ShadeTree.Directory.Verify
import ShadeTree.Lib.Text

/-!
# Capabilities that are canonical (`canonicalCaps` in `lib/directory.mjs`)

What `canonicalCaps` keeps of a value it keeps of what it kept: each field of its result passes the test of its field
unchanged.  So a gateway may sign what it sends or what is kept of it, and the bytes are the same.
-/

namespace ShadeTree.Directory

open ShadeTree.Lib

/-- The value that `canonicalCaps` returns. -/
def CanonicalCaps.value (c : CanonicalCaps) : Value := c.json.bind fun d => .num (.fin d)

/-- A number of a text as a value. -/
abbrev ofJson (j : Json Decimal) : Value := j.bind fun d => .num (.fin d)

/-! ### Values that are written -/

section Write

lemma get_ofJson (key : String) (j : Json Decimal) : (ofJson j).get key = (j.get key).map ofJson :=
  Json.get_bind _ (fun _ _ => rfl) key j

lemma ofJson_arr (items : List (Json Decimal)) : ofJson (.arr items) = .arr (items.map ofJson) := by
  simp only [ofJson, Json.bind, Json.bindItems_eq_map]

@[simp] lemma asInteger_num (n : ℤ) : (ofJson (numJson n)).asInteger = some n := Decimal.toInt?_ofInt n

@[simp] lemma asString_str (s : String) : (ofJson (.str s)).asString = some s := rfl

@[simp] lemma asArray_arr (items : List (Json Decimal)) : (ofJson (.arr items)).asArray = some (items.map ofJson) := by
  rw [ofJson_arr]
  rfl

lemma filterMap_asInteger (l : List ℤ) : (l.map (ofJson ∘ numJson)).filterMap Value.asInteger = l := by
  rw [List.filterMap_map]
  exact (List.filterMap_congr fun n _ => asInteger_num n).trans List.filterMap_some

lemma filterMap_asString (l : List String) : (l.map (ofJson ∘ .str)).filterMap Value.asString = l := by
  rw [List.filterMap_map]
  exact (List.filterMap_congr fun s _ => rfl).trans List.filterMap_some

end Write

/-! ### Lists -/

section Lists

lemma nonempty_eq_some {α : Type} {l l' : List α} : nonempty l = some l' ↔ l = l' ∧ l ≠ [] := by
  unfold nonempty
  cases l with
  | nil => simp
  | cons a l => simp

variable {α : Type} [DecidableEq α] [LE α] [DecidableLE α]

/-- The items in order, each once, are in order, each once. -/
lemma sortedSet_sortedSet (htotal : ∀ a b : α, a ≤ b ∨ b ≤ a) (htrans : ∀ a b c : α, a ≤ b → b ≤ c → a ≤ c)
    (l : List α) : sortedSet (sortedSet l) = sortedSet l := by
  have : Std.Total (α := α) (· ≤ ·) := ⟨htotal⟩
  have : IsTrans α (· ≤ ·) := ⟨htrans⟩
  have hnodup : (l.dedup.insertionSort (· ≤ ·)).Nodup :=
    (List.perm_insertionSort (· ≤ ·) l.dedup).nodup_iff.mpr l.nodup_dedup
  unfold sortedSet
  rw [hnodup.dedup]
  exact (List.pairwise_insertionSort (· ≤ ·) l.dedup).insertionSort_eq

lemma mem_sortedSet {l : List α} {a : α} : a ∈ sortedSet l ↔ a ∈ l := by
  unfold sortedSet
  rw [(List.perm_insertionSort (· ≤ ·) l.dedup).mem_iff, List.mem_dedup]

lemma filter_sortedSet {p : α → Bool} {l : List α} : (sortedSet (l.filter p)).filter p = sortedSet (l.filter p) := by
  rw [List.filter_eq_self]
  intro a ha
  exact (List.mem_filter.mp (mem_sortedSet.mp ha)).2

end Lists

/-! ### The fields -/

lemma canonicalPorts_fixed {v : Option Value} {ports : List ℤ} (h : canonicalPorts v = some ports) :
    canonicalPorts (some (ofJson (.arr (ports.map numJson)))) = some ports := by
  obtain ⟨items, -, hports⟩ := Option.bind_eq_some_iff.mp h
  obtain ⟨rfl, hne⟩ := nonempty_eq_some.mp hports
  unfold canonicalPorts
  rw [Option.bind_some, asArray_arr, Option.bind_some, List.map_map, filterMap_asInteger, filter_sortedSet,
    sortedSet_sortedSet Int.le_total (fun _ _ _ => Int.le_trans)]
  exact nonempty_eq_some.mpr ⟨rfl, hne⟩

lemma canonicalArtifacts_fixed {v : Option Value} {ids : List String} (h : canonicalArtifacts v = some ids) :
    canonicalArtifacts (some (ofJson (.arr (ids.map .str)))) = some ids := by
  obtain ⟨items, -, hids⟩ := Option.bind_eq_some_iff.mp h
  obtain ⟨hids, hlen⟩ := Option.filter_eq_some_iff.mp hids
  obtain ⟨rfl, hne⟩ := nonempty_eq_some.mp hids
  unfold canonicalArtifacts
  rw [Option.bind_some, asArray_arr, Option.bind_some, List.map_map, filterMap_asString, filter_sortedSet,
    sortedSet_sortedSet String.le_total (fun _ _ _ => String.le_trans)]
  exact Option.filter_eq_some_iff.mpr ⟨nonempty_eq_some.mpr ⟨rfl, hne⟩, hlen⟩

lemma canonicalRegion_fixed {v : Option Value} {region : String} (h : canonicalRegion v = some region) :
    canonicalRegion (some (ofJson (.str region))) = some region :=
  Option.filter_eq_some_iff.mpr ⟨rfl, (Option.filter_eq_some_iff.mp h).2⟩

lemma canonicalProto_fixed {v : Option Value} {proto : ℤ × ℤ} (h : canonicalProto v = some proto) :
    canonicalProto (some (ofJson (.obj [("min", numJson proto.1), ("max", numJson proto.2)]))) = some proto := by
  have hrange : 1 ≤ proto.1 ∧ proto.1 ≤ proto.2 := by
    unfold canonicalProto at h
    obtain ⟨value, -, h⟩ := Option.bind_eq_some_iff.mp h
    obtain ⟨min, -, h⟩ := Option.bind_eq_some_iff.mp h
    obtain ⟨max, -, h⟩ := Option.bind_eq_some_iff.mp h
    split at h
    · next hle => exact Option.some.inj h ▸ hle
    · cases h
  have hmin : ((ofJson (.obj [("min", numJson proto.1), ("max", numJson proto.2)])).get "min").bind Value.asInteger =
      some proto.1 := by
    simp [get_ofJson, Json.get_cons, Json.get_nil, asInteger_num]
  have hmax : ((ofJson (.obj [("min", numJson proto.1), ("max", numJson proto.2)])).get "max").bind Value.asInteger =
      some proto.2 := by
    simp [get_ofJson, Json.get_cons, Json.get_nil, asInteger_num]
  unfold canonicalProto
  simp only [Option.bind_eq_bind, Option.bind_some, hmin, hmax, if_pos hrange]

/-- A name in lower case is not changed. -/
def IsLowered (names : List String) : Prop := ∀ name ∈ names, toLowerCase name = name

lemma isLowered_admits : IsLowered ADMIT_PATHS := by
  unfold IsLowered
  decide

lemma isLowered_protocols : IsLowered PAY_PROTOCOLS := by
  unfold IsLowered
  decide

/-- The names that are found are found among themselves. -/
lemma namedIn_fixed {names : List String} (hnames : IsLowered names) (v : Option Value) :
    namedIn names (some (ofJson (.arr ((namedIn names v).map .str)))) = namedIn names v := by
  obtain ⟨p, hp⟩ : ∃ p : String → Bool, namedIn names v = names.filter p := by
    unfold namedIn
    split
    · exact ⟨fun _ => false, (List.filter_false names).symm⟩
    · exact ⟨_, rfl⟩
  have hitems : ((ofJson (.arr ((names.filter p).map .str))).asArray.getD []).filterMap Value.asString =
      names.filter p := by
    rw [asArray_arr, Option.getD_some, List.map_map, filterMap_asString]
  have hlower : (names.filter p).map toLowerCase = names.filter p :=
    (List.map_congr_left fun name hname => hnames name (List.mem_filter.mp hname).1).trans (List.map_id _)
  rw [hp]
  unfold namedIn
  rw [Option.bind_some]
  rw [asArray_arr, Option.getD_some] at hitems
  simp only [asArray_arr, hitems, hlower]
  refine List.filter_congr fun name hname => ?_
  simp [List.mem_filter, hname]

lemma canonicalAdmits_fixed {v : Option Value} {admits : List String} (h : nonempty (canonicalAdmits v) = some admits) :
    nonempty (canonicalAdmits (some (ofJson (.arr (admits.map .str))))) = some admits := by
  obtain ⟨rfl, hne⟩ := nonempty_eq_some.mp h
  have hfixed := namedIn_fixed isLowered_admits v
  unfold canonicalAdmits at hne ⊢
  rw [hfixed]
  exact nonempty_eq_some.mpr ⟨rfl, hne⟩

lemma safePositive_fixed {v : Option Value} {n : ℤ} (h : safePositive v = some n) :
    safePositive (some (ofJson (numJson n))) = some n := by
  unfold safePositive at h ⊢
  rw [Option.bind_some, asInteger_num]
  exact Option.filter_eq_some_iff.mpr ⟨rfl, (Option.filter_eq_some_iff.mp h).2⟩

lemma canonicalRate_fixed {v : Option Value} {rate : CanonicalRate} (h : canonicalRate v = some rate) :
    canonicalRate (some (ofJson rate.json)) = some rate := by
  unfold canonicalRate at h
  obtain ⟨value, -, h⟩ := Option.bind_eq_some_iff.mp h
  split at h
  · cases h
  · obtain ⟨epochSeconds, hepoch, h⟩ := Option.bind_eq_some_iff.mp h
    obtain ⟨rootFreshnessSeconds, hroot, h⟩ := Option.bind_eq_some_iff.mp h
    obtain ⟨payloadBytesPerSlot, hbytes, h⟩ := Option.bind_eq_some_iff.mp h
    split at h
    · obtain rfl := Option.some.inj h
      have hprevious : (ofJson (numJson 1)).asInteger = some 1 := asInteger_num 1
      unfold canonicalRate
      simp [CanonicalRate.json, get_ofJson, Json.get_cons, Json.get_nil, safePositive_fixed hepoch,
        safePositive_fixed hroot, safePositive_fixed hbytes, hprevious]
    · cases h

/-! ### What is sold -/

/-- A hex digit has one lower case, which is a hex digit. -/
lemma exists_lower {c : Char} (h : isHexDigit c = true) :
    ∃ d, Bootnode.toLowerCase c = [d] ∧ isHexDigit d = true ∧ Bootnode.toLowerCase d = [d] := by
  have hc : c = Char.ofNat c.toNat := (Char.ofNat_toNat c).symm
  have hrange : 48 ≤ c.toNat ∧ c.toNat ≤ 57 ∨ 97 ≤ c.toNat ∧ c.toNat ≤ 102 ∨ 65 ≤ c.toNat ∧ c.toNat ≤ 70 := by
    simp only [isHexDigit, Bool.or_eq_true, Bool.and_eq_true, decide_eq_true_eq, or_assoc] at h
    exact h
  generalize c.toNat = n at hc hrange
  subst hc
  rcases hrange with ⟨hlo, hhi⟩ | ⟨hlo, hhi⟩ | ⟨hlo, hhi⟩
  · exact ⟨Char.ofNat n, by interval_cases n <;> decide⟩
  · exact ⟨Char.ofNat n, by interval_cases n <;> decide⟩
  · exact ⟨Char.ofNat (n + 32), by interval_cases n <;> decide⟩

lemma lower_hex {hex : List Char} (h : hex.all isHexDigit = true) :
    (hex.flatMap Bootnode.toLowerCase).length = hex.length ∧
      (hex.flatMap Bootnode.toLowerCase).all isHexDigit = true ∧
      (hex.flatMap Bootnode.toLowerCase).flatMap Bootnode.toLowerCase = hex.flatMap Bootnode.toLowerCase := by
  induction hex with
  | nil => exact ⟨rfl, rfl, rfl⟩
  | cons c hex ih =>
    rw [List.all_cons, Bool.and_eq_true] at h
    obtain ⟨d, hd, hhex, hfixed⟩ := exists_lower h.1
    obtain ⟨hlen, hall, hrest⟩ := ih h.2
    rw [List.flatMap_cons, hd, List.singleton_append, List.length_cons, List.length_cons, List.all_cons,
      List.flatMap_cons, hfixed, hlen, hhex, hall, hrest]
    exact ⟨rfl, rfl, rfl⟩

lemma afterStart_eq_some {start s rest : List Char} : afterStart start s = some rest ↔ s = start ++ rest := by
  unfold afterStart
  constructor
  · intro h
    split at h
    · next hprefix =>
      obtain ⟨t, rfl⟩ := hprefix
      rw [List.drop_left] at h
      rw [Option.some.inj h]
    · cases h
  · rintro rfl
    rw [if_pos (List.prefix_append _ _), List.drop_left]

lemma asset_fixed {asset : String} (h : ASSET_RE asset = true) :
    ASSET_RE (toLowerCase asset) = true ∧ toLowerCase (toLowerCase asset) = toLowerCase asset := by
  unfold ASSET_RE at h
  obtain ⟨hex, hhex, htest⟩ : ∃ hex, afterStart "0x".toList asset.toList = some hex ∧
      (decide (hex.length = 40) && hex.all isHexDigit) = true := by
    cases hafter : afterStart "0x".toList asset.toList with
    | none =>
      rw [hafter] at h
      cases h
    | some hex =>
      rw [hafter] at h
      exact ⟨hex, rfl, h⟩
  rw [Bool.and_eq_true, decide_eq_true_eq] at htest
  obtain ⟨hlen, hall, hfixed⟩ := lower_hex htest.2
  have hzero : "0x".toList.flatMap Bootnode.toLowerCase = "0x".toList := by decide
  have htext : (toLowerCase asset).toList = "0x".toList ++ hex.flatMap Bootnode.toLowerCase := by
    rw [toLowerCase, String.toList_ofList, afterStart_eq_some.mp hhex, List.flatMap_append, hzero]
  constructor
  · unfold ASSET_RE
    rw [htext, afterStart_eq_some.mpr rfl, Option.map_some, Option.getD_some, hall, hlen, htest.1]
    rfl
  · rw [toLowerCase, htext, List.flatMap_append, hzero, hfixed, ← htext, String.ofList_toList]

lemma onion_fixed {onion : String} (h : onionShape onion = true) : toLowerCase onion = onion := by
  simp only [onionShape, Bool.and_eq_true, decide_eq_true_eq, beq_iff_eq, List.all_eq_true] at h
  have hsuffix : ".onion".toList.flatMap Bootnode.toLowerCase = ".onion".toList := by decide
  have htext : onion.toList = onion.toList.take 56 ++ ".onion".toList := by
    rw [← h.1.2, List.take_append_drop]
  unfold toLowerCase
  rw [htext, List.flatMap_append, hsuffix, Bootnode.flatMap_toLowerCase_b32 h.2, ← htext, String.ofList_toList]

/-! #### Tiers -/

lemma isDigit_iff {c : Char} : c.isDigit = true ↔ '0' ≤ c ∧ c ≤ '9' := by
  unfold Char.isDigit
  rw [Bool.and_eq_true, decide_eq_true_eq, decide_eq_true_eq]
  exact Iff.rfl

/-- A counter is the text of its number. -/
lemma toString_counter {n : ℕ} {s : String} (h : isCounter n s.toList = true) :
    toString (limitOf s) = s ∧ 0 < limitOf s := by
  cases htext : s.toList with
  | nil =>
    rw [htext] at h
    cases h
  | cons c cs =>
    rw [htext] at h
    simp only [isCounter, Bool.and_eq_true, decide_eq_true_eq] at h
    obtain ⟨⟨⟨hlo, hhi⟩, -⟩, hdigits⟩ := h
    have hc : c ≠ '0' := by
      rintro rfl
      exact absurd hlo (by decide)
    have hzero : '0' ≤ c := by
      have hone : 49 ≤ c.toNat := hlo
      show 48 ≤ c.toNat
      omega
    have hdigit : c.isDigit = true := isDigit_iff.mpr ⟨hzero, hhi⟩
    have hread : Nat.toDigits 10 (limitOf s) = c :: cs := by
      rw [limitOf, htext]
      refine Text.toDigits_ofDigitChars (List.cons_ne_nil _ _) ?_ fun hzero => absurd (Option.some.inj hzero) hc
      rw [List.all_cons, hdigit, Bool.true_and, List.all_eq_true]
      intro d hd
      exact isDigit_iff.mpr (by simpa using List.all_eq_true.mp hdigits d hd)
    constructor
    · refine String.toList_inj.mp ?_
      rw [Nat.toString_eq_repr, Nat.toList_repr, hread, htext]
    · refine Nat.pos_of_ne_zero fun hzero => ?_
      rw [hzero] at hread
      exact hc (List.cons.inj hread).1.symm

lemma isCounter_toString {n m : ℕ} (hpos : 0 < m) (hlt : m < 10 ^ (n + 1)) : isCounter n (toString m).toList = true := by
  rw [Nat.toString_eq_repr, Nat.toList_repr]
  have hlen : (Nat.toDigits 10 m).length ≤ n + 1 := (Nat.length_toDigits_le_iff (by decide) (by omega)).mpr hlt
  have hhead : (Nat.toDigits 10 m).head? ≠ some '0' := Decimal.digitsText_head hpos
  have hdigits : ∀ c ∈ Nat.toDigits 10 m, c.isDigit = true :=
    fun c hc => Nat.isDigit_of_mem_toDigits (by decide) (by decide) hc
  cases htext : Nat.toDigits 10 m with
  | nil => exact absurd htext Nat.toDigits_ne_nil
  | cons c cs =>
    rw [htext] at hlen hhead hdigits
    obtain ⟨hc, hcs⟩ := List.forall_mem_cons.mp hdigits
    have hrange := isDigit_iff.mp hc
    have hone : '1' ≤ c := by
      have hne : c.toNat ≠ 48 := fun heq => hhead (congrArg some (Char.toNat_inj.mp heq))
      have hlo : 48 ≤ c.toNat := hrange.1
      show 49 ≤ c.toNat
      omega
    simp only [isCounter, Bool.and_eq_true, decide_eq_true_eq, List.all_eq_true]
    exact ⟨⟨⟨hone, hrange.2⟩, by simpa using hlen⟩, fun d hd => isDigit_iff.mp (hcs d hd)⟩

/-- Tiers in the order of their limits, each limit a port number and each price a counter. -/
structure TierList (tiers : List (ℕ × String)) : Prop where
  sorted : tiers.Pairwise fun a b => a.1 < b.1
  limit : ∀ tier ∈ tiers, 0 < tier.1 ∧ tier.1 ≤ 65535
  price : ∀ tier ∈ tiers, TIER_PRICE_RE tier.2 = true

/-- The limits that are offered, in their order. -/
def sortedKeys (tiers : Value) : List String :=
  ((keysOf tiers).filter fun key => TIER_KEY_RE key && limitOf key ≤ 65535).insertionSort fun a b => limitOf a ≤ limitOf b

lemma mem_sortedKeys {tiers : Value} {key : String} (h : key ∈ sortedKeys tiers) :
    TIER_KEY_RE key = true ∧ limitOf key ≤ 65535 := by
  have hmem := (List.perm_insertionSort _ _).mem_iff.mp h
  simpa using (List.mem_filter.mp hmem).2

lemma sortedKeys_pairwise (tiers : Value) : (sortedKeys tiers).Pairwise fun a b => limitOf a < limitOf b := by
  have hle : (sortedKeys tiers).Pairwise fun a b => limitOf a ≤ limitOf b := by
    have : Std.Total fun a b : String => limitOf a ≤ limitOf b := ⟨fun a b => le_total (limitOf a) (limitOf b)⟩
    have : IsTrans String fun a b => limitOf a ≤ limitOf b := ⟨fun _ _ _ => le_trans⟩
    exact List.pairwise_insertionSort _ _
  have hnodup : (sortedKeys tiers).Nodup := by
    refine (List.perm_insertionSort _ _).nodup_iff.mpr (List.Nodup.filter _ ?_)
    unfold keysOf
    split
    · exact List.nodup_dedup _
    · exact List.nodup_nil
  refine (hle.and hnodup).imp_of_mem fun {a b} ha hb hab => lt_of_le_of_ne hab.1 fun heq => hab.2 ?_
  rw [← (toString_counter (mem_sortedKeys ha).1).1, ← (toString_counter (mem_sortedKeys hb).1).1, heq]

lemma canonicalTiers_tierList (tiers : Value) : TierList (canonicalTiers tiers) := by
  have hmem : ∀ tier ∈ canonicalTiers tiers, ∃ key ∈ sortedKeys tiers, tier.1 = limitOf key ∧
      TIER_PRICE_RE tier.2 = true := by
    intro tier htier
    obtain ⟨key, hkey, hfound⟩ := List.mem_filterMap.mp htier
    obtain ⟨price, hprice, rfl⟩ := Option.map_eq_some_iff.mp hfound
    exact ⟨key, hkey, rfl, (Option.filter_eq_some_iff.mp hprice).2⟩
  refine ⟨?_, fun tier htier => ?_, fun tier htier => ?_⟩
  · refine List.Pairwise.filterMap _ (fun a b hab t ht t' ht' => ?_) (sortedKeys_pairwise tiers)
    obtain ⟨price, -, rfl⟩ := Option.map_eq_some_iff.mp ht
    obtain ⟨price', -, rfl⟩ := Option.map_eq_some_iff.mp ht'
    exact hab
  · obtain ⟨key, hkey, hlimit, -⟩ := hmem tier htier
    obtain ⟨hform, hle⟩ := mem_sortedKeys hkey
    exact hlimit ▸ ⟨(toString_counter hform).2, hle⟩
  · obtain ⟨key, hkey, -, hprice⟩ := hmem tier htier
    exact hprice

/-- The value of tiers. -/
def tiersJson (tiers : List (ℕ × String)) : Json Decimal := .obj (tiers.map fun tier => (toString tier.1, .str tier.2))

lemma get_of_mem {N : Type} {fields : List (String × Json N)} (hnodup : (fields.map Prod.fst).Nodup) {key : String}
    {value : Json N} (h : (key, value) ∈ fields) : (Json.obj fields).get key = some value := by
  induction fields with
  | nil => cases h
  | cons field fields ih =>
    rw [List.map_cons, List.nodup_cons] at hnodup
    rw [Json.get_cons]
    rcases List.mem_cons.mp h with rfl | hmem
    · have hnone : (Json.obj fields).get key = none := by
        simp only [Json.get, Option.map_eq_none_iff, List.find?_eq_none, List.mem_reverse, decide_eq_true_eq]
        intro field hfield hkey
        have hmem : field.1 ∈ fields.map Prod.fst := List.mem_map_of_mem hfield
        exact hnodup.1 (hkey ▸ hmem)
      rw [hnone, if_pos rfl, Option.none_or]
    · rw [ih hnodup.2 hmem, Option.some_or]

lemma canonicalTiers_fixed {tiers : List (ℕ × String)} (h : TierList tiers) :
    canonicalTiers (ofJson (tiersJson tiers)) = tiers := by
  have hlimit : ∀ n : ℕ, limitOf (toString n) = n := fun n => by
    rw [limitOf, Nat.toString_eq_repr, Nat.toList_repr, Nat.ofDigitChars_ten_toDigits]
  have hnodup : (tiers.map fun tier => toString tier.1).Nodup := by
    refine List.Pairwise.map _ (fun a b hab => ?_) h.sorted
    intro heq
    have hread := congrArg limitOf heq
    rw [hlimit, hlimit] at hread
    omega
  have hfields : ofJson (tiersJson tiers) = .obj (tiers.map fun tier => (toString tier.1, .str tier.2)) := by
    simp only [ofJson, tiersJson, Json.bind, Json.bindFields_eq_map, List.map_map]
    rfl
  have hkeys : keysOf (ofJson (tiersJson tiers)) = tiers.map fun tier => toString tier.1 := by
    rw [hfields, keysOf, List.map_map]
    exact hnodup.dedup
  have hfilter : (tiers.map fun tier => toString tier.1).filter
      (fun key => TIER_KEY_RE key && limitOf key ≤ 65535) = tiers.map fun tier => toString tier.1 := by
    rw [List.filter_eq_self]
    intro key hkey
    obtain ⟨tier, htier, rfl⟩ := List.mem_map.mp hkey
    obtain ⟨hpos, hle⟩ := h.limit tier htier
    rw [hlimit, Bool.and_eq_true, decide_eq_true_eq]
    exact ⟨isCounter_toString hpos (by omega), hle⟩
  have hsorted : (tiers.map fun tier => toString tier.1).insertionSort (fun a b => limitOf a ≤ limitOf b) =
      tiers.map fun tier => toString tier.1 := by
    refine List.Pairwise.insertionSort_eq (List.Pairwise.map _ (fun a b hab => ?_) h.sorted)
    rw [hlimit, hlimit]
    exact hab.le
  unfold canonicalTiers
  dsimp only
  rw [hkeys, hfilter, hsorted, List.filterMap_map]
  refine Eq.trans (List.filterMap_congr fun tier htier => ?_) List.filterMap_some
  have hget : (ofJson (tiersJson tiers)).get (toString tier.1) = some (.str tier.2) := by
    rw [hfields]
    refine get_of_mem ?_ (List.mem_map_of_mem htier)
    rw [List.map_map]
    exact hnodup
  have hprice : (some tier.2).filter TIER_PRICE_RE = some tier.2 :=
    Option.filter_eq_some_iff.mpr ⟨rfl, h.price tier htier⟩
  simp only [Function.comp_apply, hget, Option.bind_some, priceText, hprice, Option.map_some, hlimit]

/-- What `pay` is kept. -/
structure PayFixed (pay : CanonicalPay) : Prop where
  protocols : ∃ v, namedIn PAY_PROTOCOLS v = pay.protocols ∧ pay.protocols ≠ []
  onion : ∀ onion, pay.onion = some onion → onionShape onion = true
  port : isPort pay.port = true
  asset : ∃ asset, ASSET_RE asset = true ∧ pay.asset = toLowerCase asset
  chain : CHAIN_RE pay.chain = true
  tiers : TierList pay.tiers ∧ pay.tiers ≠ [] ∧ pay.tiers.length ≤ MAX_CAPS_PAY_TIERS

lemma payFixed_of {v : Option Value} {pay : CanonicalPay} (h : canonicalPay v = some pay) : PayFixed pay := by
  unfold canonicalPay at h
  obtain ⟨value, -, h⟩ := Option.bind_eq_some_iff.mp h
  obtain ⟨protocols, hprotocols, h⟩ := Option.bind_eq_some_iff.mp h
  obtain ⟨port, hport, h⟩ := Option.bind_eq_some_iff.mp h
  obtain ⟨asset, hasset, h⟩ := Option.bind_eq_some_iff.mp h
  obtain ⟨chain, hchain, h⟩ := Option.bind_eq_some_iff.mp h
  obtain ⟨tiers, htiers, h⟩ := Option.bind_eq_some_iff.mp h
  split at h
  · next hlen =>
    obtain rfl := Option.some.inj h
    obtain ⟨rfl, hne⟩ := nonempty_eq_some.mp hprotocols
    obtain ⟨rfl, hsold⟩ := nonempty_eq_some.mp htiers
    refine ⟨⟨_, rfl, hne⟩, fun onion honion => (Option.filter_eq_some_iff.mp honion).2,
      (Option.filter_eq_some_iff.mp hport).2, ⟨asset, (Option.filter_eq_some_iff.mp hasset).2, rfl⟩,
      (Option.filter_eq_some_iff.mp hchain).2, ?_, hsold, hlen⟩
    cases htier : value.get "tiers" with
    | none =>
      rw [htier] at hsold
      exact absurd rfl hsold
    | some offered => exact canonicalTiers_tierList offered
  · cases h

lemma canonicalPay_fixed {v : Option Value} {pay : CanonicalPay} (h : canonicalPay v = some pay) :
    canonicalPay (some (ofJson pay.json)) = some pay := by
  obtain ⟨⟨w, hprotocols, hne⟩, honion, hport, ⟨asset, hasset, htext⟩, hchain, htiers, hsold, hlen⟩ := payFixed_of h
  obtain ⟨hhex, hlower⟩ := asset_fixed hasset
  rw [← htext] at hhex hlower
  have hget (key : String) : (ofJson pay.json).get key = (pay.json.get key).map ofJson := get_ofJson key pay.json
  have hprotocolsGot : nonempty (namedIn PAY_PROTOCOLS ((ofJson pay.json).get "protocols")) = some pay.protocols := by
    have hjson : pay.json.get "protocols" = some (.arr (pay.protocols.map .str)) := by
      simp [CanonicalPay.json, Json.get_append, Json.get_cons, Json.get_nil, get_optional]
    have hnamed := namedIn_fixed isLowered_protocols w
    rw [hprotocols] at hnamed
    rw [hget, hjson, Option.map_some, hnamed]
    exact nonempty_eq_some.mpr ⟨rfl, hne⟩
  have honionGot : ((((ofJson pay.json).get "onion").bind Value.asString).map toLowerCase).filter onionShape =
      pay.onion := by
    have hjson : pay.json.get "onion" = pay.onion.map .str := by
      simp [CanonicalPay.json, Json.get_append, Json.get_cons, Json.get_nil, get_optional]
    rw [hget, hjson]
    cases hsome : pay.onion with
    | none => rfl
    | some onion =>
      have hshape := honion onion hsome
      rw [Option.map_some, Option.map_some, Option.bind_some, asString_str, Option.map_some, onion_fixed hshape]
      exact Option.filter_eq_some_iff.mpr ⟨rfl, hshape⟩
  have hportGot : (((ofJson pay.json).get "port").bind Value.asInteger).filter isPort = some pay.port := by
    have hjson : pay.json.get "port" = some (numJson pay.port) := by
      simp [CanonicalPay.json, Json.get_append, Json.get_cons, Json.get_nil, get_optional]
    rw [hget, hjson, Option.map_some, Option.bind_some, asInteger_num]
    exact Option.filter_eq_some_iff.mpr ⟨rfl, hport⟩
  have hassetGot : (((ofJson pay.json).get "asset").bind Value.asString).filter ASSET_RE = some pay.asset := by
    have hjson : pay.json.get "asset" = some (.str pay.asset) := by
      simp [CanonicalPay.json, Json.get_append, Json.get_cons, Json.get_nil, get_optional]
    rw [hget, hjson, Option.map_some, Option.bind_some, asString_str]
    exact Option.filter_eq_some_iff.mpr ⟨rfl, hhex⟩
  have hchainGot : (((ofJson pay.json).get "chain").bind Value.asString).filter CHAIN_RE = some pay.chain := by
    have hjson : pay.json.get "chain" = some (.str pay.chain) := by
      simp [CanonicalPay.json, Json.get_append, Json.get_cons, Json.get_nil, get_optional]
    rw [hget, hjson, Option.map_some, Option.bind_some, asString_str]
    exact Option.filter_eq_some_iff.mpr ⟨rfl, hchain⟩
  have htiersGot : nonempty ((((ofJson pay.json).get "tiers").map canonicalTiers).getD []) = some pay.tiers := by
    have hjson : pay.json.get "tiers" = some (tiersJson pay.tiers) := by
      simp [CanonicalPay.json, tiersJson, Json.get_append, Json.get_cons, Json.get_nil, get_optional]
    rw [hget, hjson, Option.map_some, Option.map_some, Option.getD_some, canonicalTiers_fixed htiers]
    exact nonempty_eq_some.mpr ⟨rfl, hsold⟩
  unfold canonicalPay
  simp only [Option.bind_eq_bind, Option.bind_some, hprotocolsGot, honionGot, hportGot, hassetGot, hchainGot, htiersGot,
    hlower, if_pos hlen]

/-! ### Idempotence -/

/-- **What is kept is kept.** -/
lemma canonicalCaps_value (caps : Option Value) : canonicalCaps (some (canonicalCaps caps).value) = canonicalCaps caps := by
  generalize hc : canonicalCaps caps = c
  have hget (key : String) : (some c.value).bind (Json.get key) = (c.json.get key).map ofJson := get_ofJson key c.json
  have hports : c.json.get "ports" = c.ports.map fun ports => .arr (ports.map numJson) := by
    simp [CanonicalCaps.json, Json.get_append, get_optional]
  have hregion : c.json.get "region" = c.region.map .str := by
    simp [CanonicalCaps.json, Json.get_append, get_optional]
  have hproto : c.json.get "proto" = c.proto.map fun proto => .obj [("min", numJson proto.1), ("max", numJson proto.2)] := by
    simp [CanonicalCaps.json, Json.get_append, get_optional]
  have hartifacts : c.json.get "artifacts" = c.artifacts.map fun ids => .arr (ids.map .str) := by
    simp [CanonicalCaps.json, Json.get_append, get_optional]
  have hadmits : c.json.get "admits" = c.admits.map fun admits => .arr (admits.map .str) := by
    simp [CanonicalCaps.json, Json.get_append, get_optional]
  have hpay : c.json.get "pay" = c.pay.map CanonicalPay.json := by
    simp [CanonicalCaps.json, Json.get_append, get_optional]
  have hrate : c.json.get "rate" = c.rate.map CanonicalRate.json := by
    simp [CanonicalCaps.json, Json.get_append, get_optional]
  unfold canonicalCaps at hc
  obtain ⟨ports, region, proto, artifacts, admits, pay, rate⟩ := c
  simp only [CanonicalCaps.mk.injEq] at hc
  obtain ⟨hcPorts, hcRegion, hcProto, hcArtifacts, hcAdmits, hcPay, hcRate⟩ := hc
  unfold canonicalCaps
  simp only [hget, hports, hregion, hproto, hartifacts, hadmits, hpay, hrate, CanonicalCaps.mk.injEq]
  refine ⟨?_, ?_, ?_, ?_, ?_, ?_, ?_⟩
  · cases ports with
    | none => rfl
    | some ports => exact canonicalPorts_fixed hcPorts
  · cases region with
    | none => rfl
    | some region => exact canonicalRegion_fixed hcRegion
  · cases proto with
    | none => rfl
    | some proto => exact canonicalProto_fixed hcProto
  · cases artifacts with
    | none => rfl
    | some ids => exact canonicalArtifacts_fixed hcArtifacts
  · cases admits with
    | none => rfl
    | some admits => exact canonicalAdmits_fixed hcAdmits
  · cases pay with
    | none => rfl
    | some pay => exact canonicalPay_fixed hcPay
  · cases rate with
    | none => rfl
    | some rate => exact canonicalRate_fixed hcRate

end ShadeTree.Directory
