import ShadeTree.Lib.Base64
import ShadeTree.Lib.Utf8
import ShadeTree.Payments.Eip3009

/-!
# The price list (`parsePrices` to `tierList` in `payments/wire.mjs`, and its encodings)

The operator sells tiers, each a limit with its price.  The parser of the list refuses a tier that comes twice, but
takes one price for two tiers.
-/

namespace ShadeTree.Payments

open ShadeTree.Lib ShadeTree.Lib.Text

/-! ### Encodings -/

def b64 (s : String) : String := String.ofList (Base64.encode false (Utf8.encode s))

def b64url (s : String) : String := String.ofList (Base64.encode true (Utf8.encode s))

/-- The pattern of the standard alphabet: digits, and at most two signs of padding. -/
def isStandardText (s : List Char) : Bool :=
  let body := s.takeWhile (· ≠ '=')
  let pad := s.dropWhile (· ≠ '=')
  decide (body ≠ []) && body.all (fun c => decide (c ∈ Base64.alphabet false)) && decide (pad.length ≤ 2) &&
    pad.all (fun c => decide (c = '='))

def isUrlText (s : List Char) : Bool := decide (s ≠ []) && s.all fun c => decide (c ∈ Base64.alphabet true)

/-- `b64decode(s, { url })`; a text that is not ASCII fails the pattern, so its length does not matter. -/
def b64decode (url : Bool) (s : String) : Option String :=
  if s.toList.length = 0 ∨ 16 * 1024 < s.toList.length then none
  else if (if url then isUrlText s.toList else isStandardText s.toList) = true then
    some (Utf8.decode (Base64.decode s.toList))
  else none

/-- The object that `JSON.parse` reads, if it reads one. -/
def jsonParseSafe (parse : String → Option Value) (s : String) : Option Value :=
  match parse s with
  | some (.obj fields) => some (.obj fields)
  | _ => none

/-- An integer as a value. -/
def number (n : ℤ) : Value := .num (.fin (Decimal.ofInt n))

def caip2 (chainId : ℕ) : String := String.ofList ("eip155:".toList ++ (Decimal.ofInt chainId).text)

def chainIdOfCaip2 : Option Value → Option ℕ
  | some (.str network) =>
    if "eip155:".toList <+: network.toList then
      let digits := network.toList.drop 7
      if isPositive digits && decide (digits.length ≤ 16) then some (numberOf digits) else none
    else none
  | _ => none

/-! ### Prices -/

/-- The tiers of an offer: an object whose keys are integers, which come in ascending order. -/
structure Tiers where
  entries : List (ℕ × String)
  ascending : entries.Pairwise fun a b => a.1 < b.1
  deriving DecidableEq

namespace Tiers

def get (tiers : Tiers) (limit : ℕ) : Option String := (tiers.entries.find? fun t => t.1 = limit).map Prod.snd

def setEntry (limit : ℕ) (price : String) : List (ℕ × String) → List (ℕ × String)
  | [] => [(limit, price)]
  | t :: ts =>
    if limit < t.1 then (limit, price) :: t :: ts
    else if t.1 < limit then t :: setEntry limit price ts
    else (limit, price) :: ts

lemma mem_setEntry {limit : ℕ} {price : String} {l : List (ℕ × String)} {t : ℕ × String}
    (h : t ∈ setEntry limit price l) : t = (limit, price) ∨ t ∈ l := by
  induction l with
  | nil => exact .inl (List.mem_singleton.mp h)
  | cons s l ih =>
    unfold setEntry at h
    split at h
    · exact List.mem_cons.mp h
    · split at h
      · rcases List.mem_cons.mp h with rfl | h
        · exact .inr List.mem_cons_self
        · exact (ih h).imp_right (List.mem_cons_of_mem s)
      · exact (List.mem_cons.mp h).imp_right (List.mem_cons_of_mem s)

lemma ascending_setEntry {limit : ℕ} {price : String} {l : List (ℕ × String)}
    (h : l.Pairwise fun a b => a.1 < b.1) : (setEntry limit price l).Pairwise fun a b => a.1 < b.1 := by
  induction l with
  | nil => exact List.pairwise_singleton _ _
  | cons s l ih =>
    obtain ⟨hs, hl⟩ := List.pairwise_cons.mp h
    unfold setEntry
    split
    · next hlt =>
      refine List.pairwise_cons.mpr ⟨fun t ht => ?_, h⟩
      rcases List.mem_cons.mp ht with rfl | ht
      · exact hlt
      · exact hlt.trans (hs t ht)
    · next hge =>
      split
      · next hgt =>
        refine List.pairwise_cons.mpr ⟨fun t ht => ?_, ih hl⟩
        rcases mem_setEntry ht with rfl | ht
        · exact hgt
        · exact hs t ht
      · next hle =>
        refine List.pairwise_cons.mpr ⟨fun t ht => ?_, hl⟩
        have hst := hs t ht
        show limit < t.1
        omega

def set (tiers : Tiers) (limit : ℕ) (price : String) : Tiers where
  entries := setEntry limit price tiers.entries
  ascending := ascending_setEntry tiers.ascending

lemma get_of_mem {tiers : Tiers} {limit : ℕ} {price : String} (h : (limit, price) ∈ tiers.entries) :
    tiers.get limit = some price := by
  obtain ⟨entries, hasc⟩ := tiers
  unfold get
  induction entries with
  | nil => cases h
  | cons t entries ih =>
    obtain ⟨ht, hrest⟩ := List.pairwise_cons.mp hasc
    rcases List.mem_cons.mp h with rfl | h
    · simp
    · have hne : t.1 ≠ limit := (ht _ h).ne
      rw [List.find?_cons_of_neg (by simpa using hne)]
      exact ih hrest h

end Tiers

/-- The pattern `^([1-9][0-9]{0,4})=([1-9][0-9]*)$` and its two groups. -/
def matchEntry (part : List Char) : Option (List Char × List Char) :=
  let limit := part.takeWhile (· ≠ '=')
  match part.dropWhile (· ≠ '=') with
  | [] => none
  | _ :: price =>
    if isPositive limit && decide (limit.length ≤ 5) && isPositive price then some (limit, price) else none

def badEntry (part : List Char) : String :=
  s!"SHADE_TREE_PAY_PRICES: bad entry \"{String.ofList part}\" (want <limit>=<atomic-amount>, e.g. 8=100000)"

def addPrice (out : Tiers) (part : List Char) : Except String Tiers :=
  match matchEntry part with
  | none => .error (badEntry part)
  | some (limit, price) =>
    if 65535 < numberOf limit then .error (badEntry part)
    else if (out.get (numberOf limit)).isSome then
      .error s!"SHADE_TREE_PAY_PRICES: duplicate tier {String.ofList limit}"
    else .ok (out.set (numberOf limit) (String.ofList price))

def parsePrices (spec : String) : Except String Tiers := do
  let parts := ((spec.toList.splitOn ',').map trim).filter (· ≠ [])
  let out ← parts.foldlM addPrice ⟨[], List.Pairwise.nil⟩
  if out.entries = [] then .error "SHADE_TREE_PAY_PRICES: empty (e.g. 8=100000,32=400000)" else .ok out

/-- What the registrar sells, and for what; `makeOffer` takes the addresses from `getAddress` and no empty realm. -/
structure Offer where
  chainId : ℕ
  asset : String
  assetName : String
  assetVersion : String
  decimals : ℕ
  payTo : String
  tiers : Tiers
  maxTimeoutSeconds : ℕ
  realm : String
  resourceUrl : String
  description : String
  asset_address : isHexString 40 asset = true
  payTo_address : isHexString 40 payTo = true
  realm_ne : realm ≠ ""

def tierForAmount (offer : Offer) (amount : Option Value) : Option ℕ :=
  (offer.tiers.entries.find? fun t => amount.bind Value.asString = some t.2).map Prod.fst

def priceOf (offer : Offer) (limit : ℕ) : Option String := offer.tiers.get limit

/-! ### What the parser promises -/

lemma positive_of_matchEntry {part limit price : List Char} (h : matchEntry part = some (limit, price)) :
    isPositive price = true := by
  unfold matchEntry at h
  dsimp only at h
  split at h
  · cases h
  · split at h
    · next hpos =>
      simp only [Bool.and_eq_true] at hpos
      rw [← (Prod.mk.inj (Option.some.inj h)).2]
      exact hpos.2
    · cases h

/-- The prices of a list are the digits of positive numbers. -/
def Tiers.Positive (tiers : Tiers) : Prop := ∀ t ∈ tiers.entries, isPositive t.2.toList = true

lemma addPrice_positive {out out' : Tiers} {part : List Char} (hout : out.Positive) (h : addPrice out part = .ok out') :
    out'.Positive := by
  unfold addPrice at h
  split at h
  · cases h
  · next hmatch =>
    split at h
    · cases h
    · split at h
      · cases h
      · rw [← Except.ok.inj h]
        intro t ht
        rcases Tiers.mem_setEntry ht with rfl | ht
        · rw [String.toList_ofList]
          exact positive_of_matchEntry hmatch
        · exact hout t ht

lemma foldlM_positive {parts : List (List Char)} {out out' : Tiers} (hout : out.Positive)
    (h : parts.foldlM addPrice out = .ok out') : out'.Positive := by
  induction parts generalizing out with
  | nil =>
    rw [← Except.ok.inj h]
    exact hout
  | cons part parts ih =>
    rw [List.foldlM_cons] at h
    cases hadd : addPrice out part with
    | error e =>
      rw [hadd] at h
      cases h
    | ok next =>
      rw [hadd] at h
      exact ih (addPrice_positive hout hadd) h

theorem parsePrices_positive {spec : String} {tiers : Tiers} (h : parsePrices spec = .ok tiers) : tiers.Positive := by
  unfold parsePrices at h
  dsimp only at h
  cases hfold : (((spec.toList.splitOn ',').map trim).filter (· ≠ [])).foldlM addPrice ⟨[], List.Pairwise.nil⟩ with
  | error e =>
    rw [hfold] at h
    cases h
  | ok out =>
    rw [hfold] at h
    change (if out.entries = [] then _ else _) = _ at h
    split at h
    · cases h
    · rw [← Except.ok.inj h]
      exact foldlM_positive (fun t ht => by cases ht) hfold

/-- No lower tier has the price. -/
def Unambiguous (tiers : Tiers) (limit : ℕ) (price : String) : Prop := ∀ l, (l, price) ∈ tiers.entries → limit ≤ l

/-- From a price that is on the list the lowest tier at that price is recovered. -/
lemma tierForAmount_price {offer : Offer} {limit : ℕ} {price : String} (h : (limit, price) ∈ offer.tiers.entries) :
    ∃ l, tierForAmount offer (some (.str price)) = some l ∧ (l, price) ∈ offer.tiers.entries ∧
      (l = limit ↔ Unambiguous offer.tiers limit price) := by
  have hasc := offer.tiers.ascending
  unfold tierForAmount Unambiguous
  generalize offer.tiers.entries = entries at h hasc
  have hp : ∀ t : ℕ × String, decide ((some (Json.str price) : Option Value).bind Value.asString = some t.2) = true ↔
      t.2 = price := by
    intro t
    rw [decide_eq_true_eq]
    exact ⟨fun h => (Option.some.inj h).symm, fun h => congrArg some h.symm⟩
  cases hfind : entries.find? fun t => decide ((some (Json.str price) : Option Value).bind Value.asString = some t.2) with
  | none => exact absurd ((hp (limit, price)).mpr rfl) (List.find?_eq_none.mp hfind _ h)
  | some t =>
    obtain ⟨l, p⟩ := t
    have hfound := List.find?_some hfind
    obtain rfl : p = price := (hp (l, p)).mp hfound
    have hmem := List.mem_of_find?_eq_some hfind
    -- the entries before the one that is found have other prices
    have hlowest : ∀ l', (l', p) ∈ entries → l ≤ l' := by
      obtain ⟨-, before, after, rfl, hbefore⟩ := List.find?_eq_some_iff_append.mp hfind
      intro l' hl'
      rcases List.mem_append.mp hl' with hl' | hl'
      · have hno := hbefore _ hl'
        rw [Bool.not_eq_true', ← Bool.not_eq_true] at hno
        exact absurd ((hp _).mpr rfl) hno
      · rcases List.mem_cons.mp hl' with heq | hl'
        · exact (congrArg Prod.fst heq).ge
        · have hrest := (List.pairwise_cons.mp (List.pairwise_append.mp hasc).2.1).1 _ hl'
          exact hrest.le
    refine ⟨l, rfl, hmem, ?_, fun hun => ?_⟩
    · rintro rfl
      exact hlowest
    · exact le_antisymm (hlowest limit h) (hun l hmem)

end ShadeTree.Payments
