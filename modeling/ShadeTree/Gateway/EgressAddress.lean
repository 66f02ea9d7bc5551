import Mathlib.Data.List.Infix
import ShadeTree.Gateway.IsIP

/-!
# The class of an address is numeric (`ipv4Int`, `ipv6BigInt`, `isPublicEgressAddress` in `gateway/gateway.mjs`)

The gateway expands an IPv6 address itself: it drops the zone, writes a dotted quad as two groups, splits at `::`
and fills in the groups left out.  `net.isIP` is a parameter that accepts the textual forms and nothing else.  Then
the expansion of every form of a value is that value, and whether an address is public depends on it alone.
-/

namespace ShadeTree.Gateway.EgressAddress

open ShadeTree.Lib ShadeTree.Lib.Text ShadeTree.Lib.Inet

/-- `Number(s)` of a text of digits; wherever `ipv4Int` is called the parts are that. -/
def number (s : List Char) : Option ℕ := if s.all Char.isDigit then some (Nat.ofDigitChars 10 s 0) else none

/-- `ipv4Int(address)`, on 32 bits. -/
def ipv4Int (address : List Char) : Option ℕ :=
  match (address.splitOn '.').mapM number with
  | some [a, b, c, d] =>
    if a ≤ 255 ∧ b ≤ 255 ∧ c ≤ 255 ∧ d ≤ 255 then
      some (((a <<< 24) % 2 ^ 32 + (b <<< 16) + (c <<< 8) + d) % 2 ^ 32)
    else none
  | _ => none

/-- The whole text matches `\d+\.\d+\.\d+\.\d+`. -/
def isQuad (s : List Char) : Bool :=
  let parts := s.splitOn '.'
  decide (parts.length = 4) && parts.all fun part => decide (part ≠ []) && part.all Char.isDigit

/-- `source.match(/(\d+\.\d+\.\d+\.\d+)$/)?.[1]`: of the ends of the text that match, the longest. -/
def quadTail (source : List Char) : Option (List Char) := source.tails.find? isQuad

/-- The address with a dotted quad at its end turned into two groups. -/
def hexTail (source : List Char) : Option (List Char) :=
  match quadTail source with
  | none => some source
  | some tail => (ipv4Int tail).map fun v4 => source.take (source.length - tail.length) ++
      (Nat.toDigits 16 ((v4 >>> 16) &&& 0xffff) ++ ':' :: Nat.toDigits 16 (v4 &&& 0xffff))

/-- `source.split("::")`. -/
def splitDouble : List Char → List (List Char)
  | [] => [[]]
  | ':' :: ':' :: s => [] :: splitDouble s
  | c :: s => (splitDouble s).modifyHead (c :: ·)

/-- `half ? half.split(":") : []`. -/
def side (half : List Char) : List (List Char) := if half = [] then [] else half.splitOn ':'

/-- The value of a digit of `[0-9a-f]`. -/
def lowerHexValue (c : Char) : Option ℕ :=
  if c.isDigit then some (c.toNat - 48) else if 'a' ≤ c ∧ c ≤ 'f' then some (c.toNat - 87) else none

/-- The value of a word that matches `^[0-9a-f]{1,4}$`. -/
def word (s : List Char) : Option ℕ :=
  if 1 ≤ s.length ∧ s.length ≤ 4 then (s.mapM lowerHexValue).map fun ds => ds.foldl (fun n d => 16 * n + d) 0 else none

/-- The expansion of an address without a zone and without a dotted quad. -/
def expand (source : List Char) : Option ℕ :=
  let halves := splitDouble source
  let left := side (halves.getD 0 [])
  let right := side (halves.getD 1 [])
  let missing : ℤ := 8 - left.length - right.length
  if 2 < halves.length then none
  else if (halves.length = 1 ∧ missing ≠ 0) ∨ (halves.length = 2 ∧ missing < 1) then none
  else
    let words := left ++ List.replicate missing.toNat ['0'] ++ right
    if words.length ≠ 8 then none
    else (words.mapM word).map fun ws => ws.foldl (fun value w => (value <<< 16) ||| w) 0

section
variable (isIP : String → ℕ)

/-- `ipv6BigInt(address)`; the text is ASCII wherever it is called. -/
def ipv6BigInt (address : List Char) : Option ℕ :=
  let source := (address.map asciiLower).takeWhile (· ≠ '%')
  if isIP (String.ofList source) ≠ 6 then none else (hexTail source).bind expand

def inIpv4Cidr (value : ℕ) (base : String) (pfx : ℕ) : Bool :=
  (ipv4Int base.toList).any fun b => value >>> (32 - pfx) == b >>> (32 - pfx)

def inIpv6Cidr (value : ℕ) (base : String) (pfx : ℕ) : Bool :=
  (ipv6BigInt isIP base.toList).any fun b => value >>> (128 - pfx) == b >>> (128 - pfx)

def isPublicEgressAddress (address : String) : Bool :=
  if isIP address = 4 then
    (ipv4Int address.toList).any fun value => !IPV4_NON_PUBLIC.any fun block => inIpv4Cidr value block.1 block.2
  else if isIP address = 6 then
    (ipv6BigInt isIP address.toList).any fun value => inIpv6Cidr isIP value "2000::" 3 &&
      !IPV6_NON_PUBLIC.any fun block => inIpv6Cidr isIP value block.1 block.2
  else false

/-- `net.isIP` accepts the textual forms, and tells the two kinds apart. -/
structure Accepts : Prop where
  four : ∀ s, isIP s = 4 ↔ ∃ v, IPv4Text s.toList v
  six : ∀ s, isIP s = 6 ↔ ∃ v, IPv6Text s.toList v

end

/-! ### IPv4 -/

lemma number_toDigits (n : ℕ) : number (Nat.toDigits 10 n) = some n := by
  have hall : (Nat.toDigits 10 n).all Char.isDigit = true :=
    List.all_eq_true.mpr fun c hc => Nat.isDigit_of_mem_toDigits (by decide) (by decide) hc
  unfold number
  rw [if_pos hall, Nat.ofDigitChars_ten_toDigits]

lemma ipv4Int_text {s : List Char} {v : ℕ} (h : IPv4Text s v) : ipv4Int s = some v := by
  obtain ⟨a, b, c, d, ha, hb, hc, hd, rfl, rfl⟩ := h
  unfold ipv4Int
  rw [splitOn_quad]
  simp only [List.mapM_cons, List.mapM_nil, number_toDigits, Option.bind_eq_bind, Option.bind_some, Option.pure_def]
  rw [if_pos (by omega)]
  simp only [Nat.shiftLeft_eq]
  congr 1
  omega

/-! ### The dotted quad at the end -/

lemma isQuad_text {s : List Char} {v : ℕ} (h : IPv4Text s v) : isQuad s = true := by
  obtain ⟨a, b, c, d, -, -, -, -, -, rfl⟩ := h
  have hpart : ∀ n, (Nat.toDigits 10 n).all Char.isDigit = true := fun n =>
    List.all_eq_true.mpr fun c hc => Nat.isDigit_of_mem_toDigits (by decide) (by decide) hc
  unfold isQuad
  simp only [splitOn_quad, List.length_cons, List.length_nil, List.all_cons, List.all_nil, hpart, ne_eq,
    Nat.toDigits_ne_nil, not_false_eq_true, decide_true, Bool.and_true]

lemma chars_of_isQuad {s : List Char} (h : isQuad s = true) : '.' ∈ s ∧ ':' ∉ s := by
  simp only [isQuad, Bool.and_eq_true, decide_eq_true_eq, List.all_eq_true] at h
  obtain ⟨hlen, hparts⟩ := h
  constructor
  · by_contra hdot
    rw [List.splitOn_eq_singleton hdot] at hlen
    cases hlen
  · intro hcolon
    rw [← (List.intercalate_splitOn '.' : _ = s)] at hcolon
    rcases mem_intercalate hcolon with hdot | ⟨part, hpart, hmem⟩
    · exact absurd (List.mem_singleton.mp hdot) (by decide)
    · exact absurd ((hparts part hpart).2 ':' hmem) (by decide)

lemma quadTail_none {s : List Char} (h : '.' ∉ s) : quadTail s = none := by
  unfold quadTail
  rw [List.find?_eq_none]
  intro t ht hquad
  exact h (((List.mem_tails t s).mp ht).subset (chars_of_isQuad hquad).1)

/-- What is before the quad ends with a colon, so no longer end of the text matches. -/
lemma quadTail_append {init quad : List Char} (hinit : init = [] ∨ [':'] <:+ init) (hquad : isQuad quad = true) :
    quadTail (init ++ quad) = some quad := by
  induction init with
  | nil =>
    unfold quadTail
    cases quad with
    | nil => cases hquad
    | cons c quad => rw [List.nil_append, List.tails_cons, List.find?_cons_of_pos hquad]
  | cons c init ih =>
    obtain hsuffix := hinit.resolve_left (List.cons_ne_nil c init)
    have hcolon : ':' ∈ c :: init := hsuffix.subset (List.mem_singleton.mpr rfl)
    have hnot : ¬ isQuad (c :: (init ++ quad)) = true := fun h =>
      (chars_of_isQuad h).2 (List.mem_append_left quad hcolon)
    have hrest : init = [] ∨ [':'] <:+ init :=
      (List.suffix_cons_iff.mp hsuffix).imp_left fun h => (List.cons.inj h).2.symm
    unfold quadTail at ih ⊢
    rw [List.cons_append, List.tails_cons, List.find?_cons_of_neg hnot]
    exact ih hrest

lemma hexTail_append {init quad : List Char} {v : ℕ} (hinit : init = [] ∨ [':'] <:+ init) (hquad : IPv4Text quad v) :
    hexTail (init ++ quad) =
      some (init ++ (Nat.toDigits 16 (v / 65536) ++ ':' :: Nat.toDigits 16 (v % 65536))) := by
  have hlt := hquad.lt
  have hhigh : (v >>> 16) &&& 0xffff = v / 65536 := by
    rw [Nat.shiftRight_eq_div_pow, show (0xffff : ℕ) = 2 ^ 16 - 1 from rfl, Nat.and_two_pow_sub_one_eq_mod]
    omega
  have hlow : v &&& 0xffff = v % 65536 := Nat.and_two_pow_sub_one_eq_mod v 16
  unfold hexTail
  rw [quadTail_append hinit (isQuad_text hquad)]
  simp only [ipv4Int_text hquad, Option.map_some, hhigh, hlow, List.length_append, Nat.add_sub_cancel,
    List.take_left]

/-! ### The groups -/

lemma splitDouble_of_single {s : List Char} (h : ¬ [':', ':'] <:+: s) : splitDouble s = [s] := by
  fun_induction splitDouble s with
  | case1 => rfl
  | case2 s ih => exact absurd ⟨[], s, rfl⟩ h
  | case3 c s hne ih =>
    rw [ih fun hinner => h (hinner.trans (List.infix_cons (List.infix_refl s)))]
    rfl

lemma splitDouble_append {l r : List Char} (h : ¬ [':', ':'] <:+: l) (hsuffix : ¬ [':'] <:+ l) :
    splitDouble (l ++ ':' :: ':' :: r) = l :: splitDouble r := by
  induction l with
  | nil => rfl
  | cons c l ih =>
    have hne : ¬ (c = ':' ∧ ∃ t, l ++ ':' :: ':' :: r = ':' :: t) := by
      rintro ⟨rfl, t, ht⟩
      cases l with
      | nil => exact hsuffix (List.suffix_refl _)
      | cons d l =>
        obtain ⟨rfl, -⟩ := List.cons.inj ht
        exact h ⟨[], l, rfl⟩
    have hl : ¬ [':'] <:+ l := fun hs => hsuffix (hs.trans (List.suffix_cons c l))
    have hrec : splitDouble (c :: (l ++ ':' :: ':' :: r)) = (splitDouble (l ++ ':' :: ':' :: r)).modifyHead (c :: ·) := by
      rw [splitDouble]
      intro s hc hs
      exact hne ⟨hc, s, hs⟩
    rw [List.cons_append, hrec, ih (fun hi => h (hi.trans (List.infix_cons (List.infix_refl l)))) hl]
    rfl

lemma lowerHexValue_asciiLower (c : Char) : lowerHexValue (asciiLower c) = hexValue c := by
  have hcase : hexValue (asciiLower c) = lowerHexValue (asciiLower c) := by
    unfold hexValue lowerHexValue
    split
    · rfl
    split
    · rfl
    · refine if_neg fun ⟨hA, hF⟩ => ?_
      have hlow : 65 ≤ (asciiLower c).toNat := hA
      have hhigh : (asciiLower c).toNat ≤ 70 := hF
      exact asciiLower_not_upper c ⟨hlow, by omega⟩
  rw [← hcase, hexValue_asciiLower]

lemma word_lower {s : List Char} {v : ℕ} (h : Group s v) : word (s.map asciiLower) = some v := by
  obtain ⟨hpos, hlen, ds, hds, rfl⟩ := h
  have hmap : (s.map asciiLower).mapM lowerHexValue = some ds := by
    rw [mapM_eq_some, List.map_map, ← hds]
    exact List.map_congr_left fun c _ => lowerHexValue_asciiLower c
  unfold word
  rw [if_pos (by simpa using ⟨hpos, hlen⟩), hmap]
  rfl

lemma mapM_word {parts : List (List Char)} {vs : List ℕ} (h : List.Forall₂ Group parts vs) :
    (parts.map (List.map asciiLower)).mapM word = some vs := by
  rw [mapM_eq_some, List.map_map]
  induction h with
  | nil => rfl
  | cons hv _ ih => rw [List.map_cons, List.map_cons, ih, Function.comp_apply, word_lower hv]

/-- The value of the words is their numeral. -/
lemma foldl_words {ws : List ℕ} (h : ∀ w ∈ ws, w < 65536) (v : ℕ) :
    ws.foldl (fun value w => (value <<< 16) ||| w) v = ws.foldl (fun v w => v * 65536 + w) v := by
  induction ws generalizing v with
  | nil => rfl
  | cons w ws ih =>
    have hor : (v <<< 16) ||| w = v * 65536 + w := by
      rw [← Nat.shiftLeft_add_eq_or_of_lt (h w List.mem_cons_self), Nat.shiftLeft_eq]
    rw [List.foldl_cons, List.foldl_cons, hor, ih fun w' hw' => h w' (List.mem_cons_of_mem _ hw')]

lemma lt_of_groups {parts : List (List Char)} {vs : List ℕ} (h : List.Forall₂ Group parts vs) :
    ∀ v ∈ vs, v < 65536 := by
  induction h with
  | nil => exact fun v hv => absurd hv List.not_mem_nil
  | cons hv _ ih => exact List.forall_mem_cons.mpr ⟨hv.lt, ih⟩

/-- A group, lowered, is not empty and has no colon. -/
lemma lower_apart {parts : List (List Char)} {vs : List ℕ} (h : List.Forall₂ Group parts vs) :
    ∀ part ∈ parts.map (List.map asciiLower), part ≠ [] ∧ ':' ∉ part := by
  intro part hpart
  obtain ⟨v, hv⟩ := exists_group (forall₂_lower h) hpart
  refine ⟨fun hnil => ?_, fun hcolon => absurd (hv.chars ':' hcolon) (by decide)⟩
  have := hv.1
  rw [hnil] at this
  cases this

lemma side_intercalate {parts : List (List Char)} (h : ∀ part ∈ parts, part ≠ [] ∧ ':' ∉ part) :
    side ([':'].intercalate parts) = parts := by
  unfold side
  by_cases hnil : parts = []
  · rw [hnil]
    rfl
  · rw [if_neg (intercalate_apart hnil h).1]
    exact List.splitOn_intercalate ':' (fun part hp => (h part hp).2) hnil

lemma expand_groups {parts : List (List Char)} {vs : List ℕ} (h : List.Forall₂ Group parts vs) (hlen : vs.length = 8) :
    expand ([':'].intercalate (parts.map (List.map asciiLower))) = some (numeral vs) := by
  have hparts : (parts.map (List.map asciiLower)).length = 8 := by rw [List.length_map, h.length_eq, hlen]
  have hne : parts.map (List.map asciiLower) ≠ [] := by
    intro hnil
    rw [hnil] at hparts
    cases hparts
  have hapart := lower_apart h
  have hsingle := splitDouble_of_single (intercalate_apart hne hapart).2.2.1
  unfold expand
  simp only [hsingle, List.getD_cons_zero, List.getD_cons_succ, List.getD_nil, side_intercalate hapart, hparts]
  rw [if_neg (by simp), if_neg (by simp [side])]
  simp only [side, if_true, List.length_nil, List.append_nil]
  rw [if_neg (by simp [hparts])]
  simp [mapM_word h, foldl_words (lt_of_groups h), numeral]

/-- No `::` within the groups on one side. -/
lemma not_double {parts : List (List Char)} (h : ∀ part ∈ parts, part ≠ [] ∧ ':' ∉ part) :
    ¬ [':', ':'] <:+: [':'].intercalate parts ∧ ¬ [':'] <:+ [':'].intercalate parts := by
  by_cases hnil : parts = []
  · rw [hnil]
    decide
  · exact (intercalate_apart hnil h).2.2

lemma expand_double {ps qs : List (List Char)} {ls rs : List ℕ} (hl : List.Forall₂ Group ps ls)
    (hr : List.Forall₂ Group qs rs) (hlen : ls.length + rs.length ≤ 7) :
    expand ([':'].intercalate (ps.map (List.map asciiLower)) ++
        ':' :: ':' :: [':'].intercalate (qs.map (List.map asciiLower))) =
      some (numeral (ls ++ List.replicate (8 - ls.length - rs.length) 0 ++ rs)) := by
  have hps : (ps.map (List.map asciiLower)).length = ls.length := by rw [List.length_map, hl.length_eq]
  have hqs : (qs.map (List.map asciiLower)).length = rs.length := by rw [List.length_map, hr.length_eq]
  have hleft := not_double (lower_apart hl)
  have hsplit := (splitDouble_append (r := [':'].intercalate (qs.map (List.map asciiLower))) hleft.1 hleft.2).trans
    (congrArg (_ :: ·) (splitDouble_of_single (not_double (lower_apart hr)).1))
  have hmissing : ((8 : ℤ) - ls.length - rs.length).toNat = 8 - ls.length - rs.length := by omega
  have hwords : (ps.map (List.map asciiLower) ++ List.replicate (8 - ls.length - rs.length) ['0'] ++
      qs.map (List.map asciiLower)).mapM word = some (ls ++ List.replicate (8 - ls.length - rs.length) 0 ++ rs) := by
    have hzero : word ['0'] = some 0 := by decide
    simp only [mapM_eq_some, List.map_append, List.map_replicate, hzero, mapM_eq_some.mp (mapM_word hl),
      mapM_eq_some.mp (mapM_word hr)]
  have hbound : ∀ w ∈ ls ++ List.replicate (8 - ls.length - rs.length) 0 ++ rs, w < 65536 := by
    intro w hw
    rcases List.mem_append.mp hw with hw | hw
    · rcases List.mem_append.mp hw with hw | hw
      · exact lt_of_groups hl w hw
      · rw [(List.mem_replicate.mp hw).2]
        decide
    · exact lt_of_groups hr w hw
  unfold expand
  simp only [hsplit, List.getD_cons_zero, List.getD_cons_succ, side_intercalate (lower_apart hl),
    side_intercalate (lower_apart hr), hps, hqs, hmissing, hwords, List.length_cons, List.length_nil]
  rw [if_neg (by omega), if_neg (by omega), if_neg ?_]
  · simp only [Option.map_some, foldl_words hbound, numeral]
  · simp only [List.length_append, hps, hqs, List.length_replicate]
    omega

/-- The groups of a side, and what is made of its text: a quad at its end is turned into groups. -/
lemma hexTail_quad {r : List Char} {vs : List ℕ} (h : GroupsQuad r vs) {init : List Char}
    (hinit : init = [] ∨ [':'] <:+ init) (hdot : '.' ∉ init) :
    ∃ parts, List.Forall₂ Group parts vs ∧
      hexTail (init ++ r.map asciiLower) = some (init ++ [':'].intercalate (parts.map (List.map asciiLower))) := by
  have hcase : [':'].map asciiLower = [':'] := rfl
  rcases h with h | ⟨parts, vs', quad, v, hparts, hquad, rfl, rfl⟩
  · have hnone : '.' ∉ init ++ r.map asciiLower := by
      rw [List.mem_append, not_or]
      refine ⟨hdot, fun hmem => ?_⟩
      rcases h.lower.chars '.' hmem with h | h
      · exact absurd h (by decide)
      · exact absurd h (by decide)
    obtain ⟨parts, hparts, rfl⟩ := h
    refine ⟨parts, hparts, ?_⟩
    unfold hexTail
    rw [quadTail_none hnone, map_intercalate, hcase]
  · obtain ⟨before, hbefore, heq⟩ := exists_intercalate_concat [':'] (parts.map (List.map asciiLower))
    have hlt := hquad.lt
    obtain ⟨hhigh, hhighLower⟩ := group_toDigits (show v / 65536 < 65536 by omega)
    obtain ⟨hlow, hlowLower⟩ := group_toDigits (show v % 65536 < 65536 by omega)
    refine ⟨parts ++ [Nat.toDigits 16 (v / 65536), Nat.toDigits 16 (v % 65536)],
      List.rel_append hparts (.cons hhigh (.cons hlow .nil)), ?_⟩
    have htext : init ++ ([':'].intercalate (parts ++ [quad])).map asciiLower = (init ++ before) ++ quad := by
      rw [map_intercalate, List.map_append, hcase, List.map_singleton, hquad.lower, heq, List.intercalate_singleton,
        List.append_assoc]
    have hends : init ++ before = [] ∨ [':'] <:+ init ++ before := by
      rcases hbefore with rfl | hbefore
      · rwa [List.append_nil]
      · exact .inr (hbefore.trans (List.suffix_append _ _))
    rw [htext, hexTail_append hends hquad, List.map_append, List.map_cons, List.map_cons, List.map_nil, hhighLower,
      hlowLower, heq, List.intercalate_cons_cons, List.intercalate_singleton, List.append_assoc]
    simp

/-- **The expansion of every textual form of a value is that value.** -/
theorem ipv6BigInt_text {isIP : String → ℕ} (hip : Accepts isIP) {s : List Char} {v : ℕ} (h : IPv6Text s v) :
    ipv6BigInt isIP s = some v := by
  obtain ⟨a, zone, words, rfl, ha, rfl, hzone⟩ := h
  have hsource : ((a ++ zone).map asciiLower).takeWhile (· ≠ '%') = a.map asciiLower := by
    have hall : ∀ c ∈ a.map asciiLower, decide (c ≠ '%') = true := by
      intro c hc
      refine decide_eq_true ?_
      rintro rfl
      rcases ha.lower.chars '%' hc with h | h | h
      · exact absurd h (by decide)
      · exact absurd h (by decide)
      · exact absurd h (by decide)
    rw [List.map_append, List.takeWhile_append_of_pos hall]
    rcases hzone with rfl | ⟨z, rfl, -⟩
    · simp
    · rw [List.map_cons, List.takeWhile_cons_of_neg (by decide), List.append_nil]
  have hsix : isIP (String.ofList (a.map asciiLower)) = 6 := by
    refine (hip.six _).mpr ⟨numeral words, a.map asciiLower, [], words, ?_, ha.lower, rfl, .inl rfl⟩
    rw [String.toList_ofList, List.append_nil]
  unfold ipv6BigInt
  simp only [hsource]
  rw [if_neg (by rw [hsix]; decide)]
  rcases ha with ⟨hgroups, hlen⟩ | ⟨l, r, ls, rs, hl, hr, hlen, rfl, rfl⟩
  · obtain ⟨parts, hparts, heq⟩ := hexTail_quad hgroups (.inl (rfl : ([] : List Char) = [])) List.not_mem_nil
    rw [List.nil_append, List.nil_append] at heq
    rw [heq]
    exact expand_groups hparts hlen
  · have hdot : '.' ∉ l.map asciiLower ++ [':', ':'] := by
      rw [List.mem_append, not_or]
      refine ⟨fun hmem => ?_, by decide⟩
      rcases hl.lower.chars '.' hmem with h | h
      · exact absurd h (by decide)
      · exact absurd h (by decide)
    have hinit : [':'] <:+ l.map asciiLower ++ [':', ':'] := ⟨l.map asciiLower ++ [':'], by simp⟩
    obtain ⟨qs, hqs, heq⟩ := hexTail_quad hr (.inr hinit) hdot
    obtain ⟨ps, hps, rfl⟩ := hl
    have htext : ([':'].intercalate ps ++ ':' :: ':' :: r).map asciiLower =
        ([':'].intercalate ps).map asciiLower ++ [':', ':'] ++ r.map asciiLower := by
      rw [List.map_append]
      simp [show asciiLower ':' = ':' from rfl]
    rw [htext, heq, map_intercalate, Option.bind_some, List.append_assoc]
    exact expand_double hps hqs hlen

/-! ### Blocks -/

variable {isIP : String → ℕ}

lemma accepts_isIP : Accepts Gateway.isIP := ⟨isIP_four, isIP_six⟩

lemma IPv4_base {block : String × ℕ} (h : block ∈ IPV4_NON_PUBLIC) :
    ∃ b, IPv4Text block.1.toList b ∧ 2 ^ (32 - block.2) ∣ b := by
  have hall : ∀ block ∈ IPV4_NON_PUBLIC,
      (Gateway.ipv4Int block.1.toList).any fun b => decide (2 ^ (32 - block.2) ∣ b) := by decide
  obtain ⟨b, hb, hdvd⟩ := (Option.any_eq_true _ _).mp (hall block h)
  exact ⟨b, ipv4Int_iff.mp hb, of_decide_eq_true hdvd⟩

lemma IPv6_base {block : String × ℕ} (h : block ∈ ("2000::", 3) :: IPV6_NON_PUBLIC) :
    ∃ b, IPv6Text block.1.toList b ∧ 2 ^ (128 - block.2) ∣ b := by
  have hall : ∀ block ∈ ("2000::", 3) :: IPV6_NON_PUBLIC,
      (ipv6Words block.1.toList).any fun words => decide (2 ^ (128 - block.2) ∣ numeral words) := by decide
  obtain ⟨words, hwords, hdvd⟩ := (Option.any_eq_true _ _).mp (hall block h)
  exact ⟨_, ⟨_, [], words, (List.append_nil _).symm, ipv6Words_iff.mp hwords, rfl, .inl rfl⟩, of_decide_eq_true hdvd⟩

/-- The comparison of the prefixes is membership in the block. -/
lemma inIpv4Cidr_iff {block : String × ℕ} (h : block ∈ IPV4_NON_PUBLIC) {b : ℕ} (hb : IPv4Text block.1.toList b)
    (v : ℕ) : inIpv4Cidr v block.1 block.2 = true ↔ InBlock 32 b block.2 v := by
  obtain ⟨b', hb', hdvd⟩ := IPv4_base h
  obtain rfl := Option.some.inj ((ipv4Int_text hb).symm.trans (ipv4Int_text hb'))
  unfold inIpv4Cidr
  rw [ipv4Int_text hb, Option.any_some, beq_iff_eq, shiftRight_eq_iff hdvd]

lemma inIpv6Cidr_iff (hip : Accepts isIP) {block : String × ℕ} (h : block ∈ ("2000::", 3) :: IPV6_NON_PUBLIC) {b : ℕ}
    (hb : IPv6Text block.1.toList b) (v : ℕ) :
    inIpv6Cidr isIP v block.1 block.2 = true ↔ InBlock 128 b block.2 v := by
  obtain ⟨b', hb', hdvd⟩ := IPv6_base h
  obtain rfl := Option.some.inj ((ipv6BigInt_text hip hb).symm.trans (ipv6BigInt_text hip hb'))
  unfold inIpv6Cidr
  rw [ipv6BigInt_text hip hb, Option.any_some, beq_iff_eq, shiftRight_eq_iff hdvd]

/-- What the verdict on a value of 32 bits has to be. -/
def PublicV4 (v : ℕ) : Prop :=
  ∀ block ∈ IPV4_NON_PUBLIC, ∀ b, IPv4Text block.1.toList b → ¬ InBlock 32 b block.2 v

/-- What the verdict on a value of 128 bits has to be. -/
def PublicV6 (v : ℕ) : Prop :=
  (∀ b, IPv6Text "2000::".toList b → InBlock 128 b 3 v) ∧
    ∀ block ∈ IPV6_NON_PUBLIC, ∀ b, IPv6Text block.1.toList b → ¬ InBlock 128 b block.2 v

lemma isPublicEgressAddress_four (hip : Accepts isIP) {s : String} {v : ℕ} (h : IPv4Text s.toList v) :
    isPublicEgressAddress isIP s = true ↔ PublicV4 v := by
  unfold isPublicEgressAddress
  rw [if_pos ((hip.four s).mpr ⟨v, h⟩), ipv4Int_text h, Option.any_some, Bool.not_eq_true', List.any_eq_false]
  refine forall₂_congr fun block hblock => ?_
  obtain ⟨b, hb, -⟩ := IPv4_base hblock
  refine ⟨fun hout b' hb' hin => hout ((inIpv4Cidr_iff hblock hb' v).mpr hin), fun hout hin => ?_⟩
  exact hout b hb ((inIpv4Cidr_iff hblock hb v).mp hin)

lemma isPublicEgressAddress_six (hip : Accepts isIP) {s : String} {v : ℕ} (h : IPv6Text s.toList v) :
    isPublicEgressAddress isIP s = true ↔ PublicV6 v := by
  have hsix := (hip.six s).mpr ⟨v, h⟩
  have hglobal : inIpv6Cidr isIP v "2000::" 3 = true ↔ ∀ b, IPv6Text "2000::".toList b → InBlock 128 b 3 v := by
    have hmem : ("2000::", 3) ∈ ("2000::", 3) :: IPV6_NON_PUBLIC := List.mem_cons_self
    obtain ⟨b, hb, -⟩ := IPv6_base hmem
    exact ⟨fun hin b' hb' => (inIpv6Cidr_iff hip hmem hb' v).mp hin, fun hin => (inIpv6Cidr_iff hip hmem hb v).mpr (hin b hb)⟩
  unfold isPublicEgressAddress
  rw [if_neg (by omega), if_pos hsix, ipv6BigInt_text hip h, Option.any_some, Bool.and_eq_true, hglobal,
    Bool.not_eq_true', List.any_eq_false]
  refine and_congr_right fun _ => forall₂_congr fun block hblock => ?_
  obtain ⟨b, hb, -⟩ := IPv6_base (List.mem_cons_of_mem _ hblock)
  refine ⟨fun hout b' hb' hin => hout ((inIpv6Cidr_iff hip (List.mem_cons_of_mem _ hblock) hb' v).mpr hin), fun hout hin => ?_⟩
  exact hout b hb ((inIpv6Cidr_iff hip (List.mem_cons_of_mem _ hblock) hb v).mp hin)

lemma text_of_words {s : String} {words : List ℕ} (h : ipv6Words s.toList = some words) :
    IPv6Text s.toList (numeral words) :=
  ⟨_, [], words, (List.append_nil _).symm, ipv6Words_iff.mp h, rfl, .inl rfl⟩

/-- **The class of an address is the class of its value.** A textual form of a 32-bit value is public if the value
is in no block of the list, one of a 128-bit value if it is in `2000::/3` and in no block of the other list; so the
forms of one value are all public or none is, and the forms of the addresses that map IPv4 are not. -/
theorem isPublicEgressAddress_numeric (hip : Accepts isIP) :
    (∀ s v, IPv4Text s.toList v → (isPublicEgressAddress isIP s = true ↔ PublicV4 v)) ∧
    (∀ s v, IPv6Text s.toList v → (isPublicEgressAddress isIP s = true ↔ PublicV6 v)) ∧
    (∀ s s' v, IPv6Text s.toList v → IPv6Text s'.toList v →
      isPublicEgressAddress isIP s = isPublicEgressAddress isIP s') ∧
    ∀ s v, IPv6Text s.toList v → InBlock 128 (0xffff * 2 ^ 32) 96 v → isPublicEgressAddress isIP s = false := by
  refine ⟨fun s v h => isPublicEgressAddress_four hip h, fun s v h => isPublicEgressAddress_six hip h,
    fun s s' v h h' => ?_, fun s v h hmapped => ?_⟩
  · rw [Bool.eq_iff_iff, isPublicEgressAddress_six hip h, isPublicEgressAddress_six hip h']
  · rw [← Bool.not_eq_true, isPublicEgressAddress_six hip h]
    rintro ⟨hglobal, -⟩
    have hwords : ipv6Words "2000::".toList = some [0x2000, 0, 0, 0, 0, 0, 0, 0] := by decide
    have hin := hglobal _ (text_of_words hwords)
    simp only [InBlock, numeral, List.foldl_cons, List.foldl_nil] at hin hmapped
    omega

/-- Two forms of `2001:db8::c000:201`, and the reader of the model for `net.isIP`. -/
theorem isPublicEgressAddress_numeric_quad :
    isPublicEgressAddress Gateway.isIP "2001:DB8::192.0.2.1" =
      isPublicEgressAddress Gateway.isIP "2001:0db8:0:0:0:0:c000:0201" :=
  (isPublicEgressAddress_numeric accepts_isIP).2.2.1 _ _ _
    (@text_of_words _ [0x2001, 0xdb8, 0, 0, 0, 0, 0xc000, 0x201] (by decide))
    (text_of_words (by decide))

/-! ### The verdict that the resolution of a target uses -/

lemma any_congr_mem {α : Type} {f g : α → Bool} {l : List α} (h : ∀ a ∈ l, f a = g a) : l.any f = l.any g := by
  induction l with
  | nil => rfl
  | cons a l ih =>
    rw [List.forall_mem_cons] at h
    rw [List.any_cons, List.any_cons, h.1, ih h.2]

lemma gateway_inIpv4Cidr {block : String × ℕ} (h : block ∈ IPV4_NON_PUBLIC) (v : ℕ) :
    Gateway.inIpv4Cidr v block.1 block.2 = inIpv4Cidr v block.1 block.2 := by
  obtain ⟨b, hb, -⟩ := IPv4_base h
  unfold Gateway.inIpv4Cidr inIpv4Cidr
  rw [ipv4Int_iff.mpr hb, ipv4Int_text hb]
  simp only [Option.any_some, Nat.shiftRight_eq_div_pow]

lemma gateway_ipv6BigInt {s : List Char} {v : ℕ} (h : IPv6Text s v) : Gateway.ipv6BigInt s = some v := by
  obtain ⟨words, ha, rfl, -⟩ := ipv6Text_split h
  unfold Gateway.ipv6BigInt
  rw [ipv6Words_iff.mpr ha]
  rfl

lemma gateway_inIpv6Cidr {block : String × ℕ} (h : block ∈ ("2000::", 3) :: IPV6_NON_PUBLIC) (v : ℕ) :
    Gateway.inIpv6Cidr v block.1 block.2 = inIpv6Cidr Gateway.isIP v block.1 block.2 := by
  obtain ⟨b, hb, -⟩ := IPv6_base h
  unfold Gateway.inIpv6Cidr inIpv6Cidr
  rw [gateway_ipv6BigInt hb, ipv6BigInt_text accepts_isIP hb]
  simp only [Option.any_some, Nat.shiftRight_eq_div_pow]

/-- What `resolveEgressTarget` asks of an address is this verdict. -/
theorem isPublicEgressAddress_eq (address : String) :
    Gateway.isPublicEgressAddress address = isPublicEgressAddress Gateway.isIP address := by
  unfold Gateway.isPublicEgressAddress isPublicEgressAddress
  by_cases hfour : Gateway.isIP address = 4
  · obtain ⟨v, hv⟩ := (isIP_four address).mp hfour
    rw [if_pos hfour, if_pos hfour, ipv4Int_iff.mpr hv, ipv4Int_text hv, Option.any_some, Option.any_some,
      any_congr_mem fun block hblock => gateway_inIpv4Cidr hblock v]
  rw [if_neg hfour, if_neg hfour]
  by_cases hsix : Gateway.isIP address = 6
  · obtain ⟨v, hv⟩ := (isIP_six address).mp hsix
    have hglobal := @gateway_inIpv6Cidr ("2000::", 3) List.mem_cons_self v
    rw [if_pos hsix, if_pos hsix, gateway_ipv6BigInt hv, ipv6BigInt_text accepts_isIP hv, Option.any_some,
      Option.any_some, hglobal,
      any_congr_mem fun block hblock => gateway_inIpv6Cidr (List.mem_cons_of_mem _ hblock) v]
  · rw [if_neg hsix, if_neg hsix]

end ShadeTree.Gateway.EgressAddress
