import ShadeTree.Gateway.EgressTarget
import ShadeTree.Lib.Inet

/-!
# What `isIP` accepts

The reader of addresses that the gateway's model uses in the place of `net.isIP` accepts exactly the textual forms
of the two kinds of address, and reads the value of each.
-/

namespace ShadeTree.Gateway

open ShadeTree.Lib ShadeTree.Lib.Text ShadeTree.Lib.Inet

/-! ### IPv4 -/

lemma octet_iff {s : List Char} {v : ℕ} : octet s = some v ↔ v < 256 ∧ s = Nat.toDigits 10 v := by
  have hvalue : s.foldl (fun n c => 10 * n + (c.toNat - '0'.toNat)) 0 = Nat.ofDigitChars 10 s 0 := rfl
  unfold octet
  simp only [hvalue]
  constructor
  · intro h
    split at h
    · next hs =>
      obtain ⟨hpos, -, hall, hlead, hle⟩ := hs
      obtain rfl := Option.some.inj h
      have hne : s ≠ [] := by
        rintro rfl
        cases hpos
      exact ⟨by omega, (toDigits_ofDigitChars hne hall hlead).symm⟩
    · cases h
  · rintro ⟨hlt, rfl⟩
    have hvalue : Nat.ofDigitChars 10 (Nat.toDigits 10 v) 0 = v := Nat.ofDigitChars_ten_toDigits
    have hall : (Nat.toDigits 10 v).all Char.isDigit = true :=
      List.all_eq_true.mpr fun c hc => Nat.isDigit_of_mem_toDigits (by decide) (by decide) hc
    have hlead : ∀ v < 256, (Nat.toDigits 10 v).head? = some '0' → (Nat.toDigits 10 v).length = 1 := by decide +kernel
    rw [hvalue, if_pos ⟨Nat.length_toDigits_pos, (Nat.length_toDigits_le_iff (by decide) (by decide)).mpr (by omega),
      hall, hlead v hlt, by omega⟩]

lemma ipv4Int_iff {s : List Char} {v : ℕ} : ipv4Int s = some v ↔ IPv4Text s v := by
  unfold ipv4Int
  constructor
  · intro h
    split at h
    · next a b c d hparts =>
      obtain rfl := Option.some.inj h
      have hmap := mapM_eq_some.mp hparts
      simp only [List.map_cons, List.map_nil] at hmap
      obtain ⟨pa, tl, hs, ha, htl⟩ := List.map_eq_cons_iff.mp hmap
      obtain ⟨pb, tl, rfl, hb, htl⟩ := List.map_eq_cons_iff.mp htl
      obtain ⟨pc, tl, rfl, hc, htl⟩ := List.map_eq_cons_iff.mp htl
      obtain ⟨pd, tl, rfl, hd, htl⟩ := List.map_eq_cons_iff.mp htl
      obtain rfl := List.map_eq_nil_iff.mp htl
      obtain ⟨ha256, rfl⟩ := octet_iff.mp ha
      obtain ⟨hb256, rfl⟩ := octet_iff.mp hb
      obtain ⟨hc256, rfl⟩ := octet_iff.mp hc
      obtain ⟨hd256, rfl⟩ := octet_iff.mp hd
      exact ⟨a, b, c, d, ha256, hb256, hc256, hd256, rfl, by rw [← hs, List.intercalate_splitOn]⟩
    · cases h
  · rintro ⟨a, b, c, d, ha, hb, hc, hd, rfl, rfl⟩
    have hparts : [Nat.toDigits 10 a, Nat.toDigits 10 b, Nat.toDigits 10 c, Nat.toDigits 10 d].mapM octet =
        some [a, b, c, d] := by
      rw [mapM_eq_some]
      simp only [List.map_cons, List.map_nil, octet_iff.mpr ⟨ha, rfl⟩, octet_iff.mpr ⟨hb, rfl⟩,
        octet_iff.mpr ⟨hc, rfl⟩, octet_iff.mpr ⟨hd, rfl⟩]
    rw [splitOn_quad, hparts]

/-- The digit that `hextet` reads. -/
def groupDigit (c : Char) : ℕ :=
  if c.isDigit then c.toNat - '0'.toNat else if 'a' ≤ c then c.toNat - 'a'.toNat + 10 else c.toNat - 'A'.toNat + 10

lemma hextet_iff {s : List Char} {v : ℕ} : hextet s = some v ↔ Group s v := by
  have hdigit : ∀ c : Char, (c.isDigit || ('a' ≤ c && c ≤ 'f') || ('A' ≤ c && c ≤ 'F')) = true →
      hexValue c = some (groupDigit c) := by
    intro c hc
    unfold groupDigit
    simp only [Bool.or_eq_true, Bool.and_eq_true, decide_eq_true_eq] at hc
    unfold hexValue
    by_cases hd : c.isDigit = true
    · rw [if_pos hd, if_pos hd]
      rfl
    rw [if_neg hd, if_neg hd]
    by_cases ha : 'a' ≤ c
    · have hlow : 97 ≤ c.toNat := ha
      have hnupper : ¬ ('A' ≤ c ∧ c ≤ 'F') := fun h => by
        have : c.toNat ≤ 70 := h.2
        omega
      rw [if_pos ((hc.resolve_right hnupper).resolve_left hd), if_pos ha]
      congr 1
      have : 'a'.toNat = 97 := rfl
      omega
    · have hupper := hc.resolve_left fun h => ha (h.resolve_left hd).1
      have hlow : 65 ≤ c.toNat := hupper.1
      rw [if_neg fun h => ha h.1, if_neg ha, if_pos hupper]
      congr 1
      have : 'A'.toNat = 65 := rfl
      omega
  have hhex : ∀ c : Char, (hexValue c).isSome → (c.isDigit || ('a' ≤ c && c ≤ 'f') || ('A' ≤ c && c ≤ 'F')) = true := by
    intro c hc
    unfold hexValue at hc
    simp only [Bool.or_eq_true, Bool.and_eq_true, decide_eq_true_eq]
    split at hc
    · next h => exact .inl (.inl h)
    split at hc
    · next h => exact .inl (.inr h)
    split at hc
    · next h => exact .inr h
    · cases hc
  have hfold : ∀ s : List Char, s.foldl (fun n c => 16 * n + groupDigit c) 0 =
      (s.map groupDigit).foldl (fun n d => 16 * n + d) 0 := fun s => (List.foldl_map ..).symm
  constructor
  · intro h
    unfold hextet at h
    simp only at h
    split at h
    · next hs =>
      obtain ⟨hpos, hlen, hall⟩ := hs
      refine ⟨hpos, hlen, s.map groupDigit, ?_, ?_⟩
      · rw [List.map_map]
        exact List.map_congr_left fun c hc => hdigit c (List.all_eq_true.mp hall c hc)
      · rw [← hfold]
        exact (Option.some.inj h).symm
    · cases h
  · rintro h
    have hall := List.all_eq_true.mpr fun c hc => hhex c (h.chars c hc)
    obtain ⟨hpos, hlen, ds, hds, rfl⟩ := h
    have hmap : s.map groupDigit = ds := by
      refine List.map_injective_iff.mpr (Option.some_injective ℕ) ?_
      rw [← hds, List.map_map]
      exact List.map_congr_left fun c hc => (hdigit c (List.all_eq_true.mp hall c hc)).symm
    rw [← hmap, ← hfold]
    exact if_pos ⟨hpos, hlen, hall⟩

/-! ### IPv6 -/

/-- Groups between colons; with `quad` the last part may be a dotted quad. -/
lemma hextets_iff {quad : Bool} {parts : List (List Char)} {vs : List ℕ} :
    hextets quad parts = some vs ↔ List.Forall₂ Group parts vs ∨
      (quad = true ∧ ∃ ps q vs' v, parts = ps ++ [q] ∧ List.Forall₂ Group ps vs' ∧ IPv4Text q v ∧
        vs = vs' ++ [v / 65536, v % 65536]) := by
  have hdot : ∀ {part : List Char} {v : ℕ}, Group part v → '.' ∉ part := fun h hmem =>
    absurd (h.chars '.' hmem) (by decide)
  have hmem : ∀ {q : List Char} {v : ℕ}, IPv4Text q v → '.' ∈ q := by
    rintro q v ⟨a, b, c, d, -, -, -, -, -, rfl⟩
    simp [List.intercalate_cons_cons]
  fun_induction hextets quad parts generalizing vs with
  | case1 =>
    constructor
    · intro h
      obtain rfl := Option.some.inj h
      exact .inl .nil
    · rintro (h | ⟨-, ps, q, vs', v, hps, -⟩)
      · cases h
        rfl
      · simp at hps
  | case2 part hquad =>
    rw [Option.map_eq_some_iff]
    constructor
    · rintro ⟨v, hv, rfl⟩
      exact .inr ⟨hquad.1, [], part, [], v, rfl, .nil, ipv4Int_iff.mp hv, rfl⟩
    · rintro (h | ⟨-, ps, q, vs', v, hps, hgroups, hq, rfl⟩)
      · obtain ⟨v, vs, hv, -, rfl⟩ := List.forall₂_cons_left_iff.mp h
        exact absurd hquad.2 (hdot hv)
      · obtain ⟨rfl, rfl⟩ : ps = [] ∧ q = part := by
          have hlen := congrArg List.length hps
          rw [List.length_append, List.length_singleton, List.length_singleton] at hlen
          obtain rfl : ps = [] := List.length_eq_zero_iff.mp (by omega)
          exact ⟨rfl, (List.cons.inj hps).1.symm⟩
        obtain rfl := List.forall₂_nil_left_iff.mp hgroups
        exact ⟨v, ipv4Int_iff.mpr hq, rfl⟩
  | case3 part hquad =>
    rw [Option.map_eq_some_iff]
    constructor
    · rintro ⟨v, hv, rfl⟩
      exact .inl (.cons (hextet_iff.mp hv) .nil)
    · rintro (h | ⟨hq, ps, q, vs', v, hps, -, htext, -⟩)
      · obtain ⟨v, vs, hv, hnil, rfl⟩ := List.forall₂_cons_left_iff.mp h
        obtain rfl := List.forall₂_nil_left_iff.mp hnil
        exact ⟨v, hextet_iff.mpr hv, rfl⟩
      · have hlen := congrArg List.length hps
        rw [List.length_append, List.length_singleton, List.length_singleton] at hlen
        obtain rfl : ps = [] := List.length_eq_zero_iff.mp (by omega)
        obtain rfl := (List.cons.inj hps).1
        exact absurd ⟨hq, hmem htext⟩ hquad
  | case4 part parts hne ih =>
    simp only [Option.bind_eq_bind, Option.bind_eq_some_iff, Option.pure_def, Option.some.injEq]
    constructor
    · rintro ⟨v, hv, ws, hws, rfl⟩
      rcases ih.mp hws with h | ⟨hq, ps, q, vs', w, rfl, hgroups, htext, rfl⟩
      · exact .inl (.cons (hextet_iff.mp hv) h)
      · exact .inr ⟨hq, part :: ps, q, v :: vs', w, rfl, .cons (hextet_iff.mp hv) hgroups, htext, rfl⟩
    · rintro (h | ⟨hq, ps, q, vs', w, hps, hgroups, htext, rfl⟩)
      · obtain ⟨v, ws, hv, hws, rfl⟩ := List.forall₂_cons_left_iff.mp h
        exact ⟨v, hextet_iff.mpr hv, ws, ih.mpr (.inl hws), rfl⟩
      · cases ps with
        | nil => exact absurd (List.cons.inj hps).2 hne
        | cons p ps =>
          obtain ⟨rfl, rfl⟩ := List.cons.inj hps
          obtain ⟨v, ws, hv, hws, rfl⟩ := List.forall₂_cons_left_iff.mp hgroups
          exact ⟨v, hextet_iff.mpr hv, _, ih.mpr (.inr ⟨hq, ps, q, ws, w, rfl, hws, htext, rfl⟩), rfl⟩

/-- A part is not empty and has no colon. -/
lemma part_apart {parts : List (List Char)} {vs : List ℕ} (h : List.Forall₂ Group parts vs) :
    ∀ part ∈ parts, part ≠ [] ∧ ':' ∉ part := by
  intro part hpart
  obtain ⟨v, hv⟩ := exists_group h hpart
  refine ⟨?_, fun hmem => absurd (hv.chars ':' hmem) (by decide)⟩
  rintro rfl
  cases hv.1

lemma quad_apart {q : List Char} {v : ℕ} (h : IPv4Text q v) : q ≠ [] ∧ ':' ∉ q := by
  refine ⟨?_, fun hmem => ?_⟩
  · rintro rfl
    obtain ⟨a, b, c, d, -, -, -, -, -, hnil⟩ := h
    simp [List.intercalate_cons_cons] at hnil
  · rcases h.chars ':' hmem with h | h
    · exact absurd h (by decide)
    · exact absurd h (by decide)

lemma parts_apart {ps : List (List Char)} {q : List Char} {vs : List ℕ} {v : ℕ} (h : List.Forall₂ Group ps vs)
    (hq : IPv4Text q v) : ∀ part ∈ ps ++ [q], part ≠ [] ∧ ':' ∉ part := by
  intro part hpart
  rcases List.mem_append.mp hpart with hp | hp
  · exact part_apart h part hp
  · obtain rfl := List.mem_singleton.mp hp
    exact quad_apart hq

lemma half_iff {quad : Bool} {s : List Char} {vs : List ℕ} :
    half quad s = some vs ↔ if quad then GroupsQuad s vs else Groups s vs := by
  have hgroups : ∀ {parts : List (List Char)} {vs : List ℕ}, List.Forall₂ Group parts vs → parts ≠ [] →
      [':'].intercalate parts ≠ [] ∧ ([':'].intercalate parts).splitOn ':' = parts := fun h hne =>
    ⟨(intercalate_apart hne (part_apart h)).1, List.splitOn_intercalate ':' (fun p hp => (part_apart h p hp).2) hne⟩
  have hnil : ∀ {vs : List ℕ}, Groups [] vs → vs = [] := by
    rintro vs ⟨parts, hparts, heq⟩
    by_cases hne : parts = []
    · subst hne
      exact List.forall₂_nil_left_iff.mp hparts
    · exact absurd heq.symm (hgroups hparts hne).1
  have hnilQuad : ∀ {vs : List ℕ}, GroupsQuad [] vs → vs = [] := by
    rintro vs (h | ⟨ps, vs', q, v, hps, hq, heq, -⟩)
    · exact hnil h
    · exact absurd heq.symm (intercalate_apart (by simp) (parts_apart hps hq)).1
  unfold half
  by_cases hs : s = []
  · subst hs
    rw [if_pos rfl, Option.some.injEq]
    have hempty : Groups [] [] := ⟨[], .nil, rfl⟩
    cases quad with
    | false => exact ⟨fun h => h ▸ hempty, fun h => (hnil h).symm⟩
    | true => exact ⟨fun h => h ▸ .inl hempty, fun h => (hnilQuad h).symm⟩
  · rw [if_neg hs, hextets_iff]
    have hplain : List.Forall₂ Group (s.splitOn ':') vs ↔ Groups s vs := by
      constructor
      · intro h
        exact ⟨_, h, (List.intercalate_splitOn ':').symm⟩
      · rintro ⟨parts, hparts, rfl⟩
        have hne : parts ≠ [] := by
          rintro rfl
          exact hs rfl
        rwa [(hgroups hparts hne).2]
    rw [hplain]
    cases quad with
    | false => simp
    | true =>
      simp only [true_and, if_true, GroupsQuad]
      refine or_congr_right ⟨?_, ?_⟩
      · rintro ⟨ps, q, vs', v, hsplit, hps, hq, rfl⟩
        exact ⟨ps, vs', q, v, hps, hq, by rw [← hsplit, List.intercalate_splitOn], rfl⟩
      · rintro ⟨ps, vs', q, v, hps, hq, rfl, rfl⟩
        refine ⟨ps, q, vs', v, ?_, hps, hq, rfl⟩
        exact List.splitOn_intercalate ':' (fun p hp => (parts_apart hps hq p hp).2) (by simp)

lemma splitDouble_eq (s : List Char) :
    match splitDouble s with
    | (l, none) => s = l
    | (l, some r) => s = l ++ ':' :: ':' :: r := by
  fun_induction splitDouble s with
  | case1 => rfl
  | case2 s => rfl
  | case3 c s hne ih =>
    cases h : splitDouble s with
    | mk l r =>
      rw [h] at ih
      cases r with
      | none => exact congrArg (c :: ·) ih
      | some r => exact congrArg (c :: ·) ih

lemma splitDouble_of_single {s : List Char} (h : ¬ [':', ':'] <:+: s) : splitDouble s = (s, none) := by
  have heq := splitDouble_eq s
  cases hs : splitDouble s with
  | mk l r =>
    rw [hs] at heq
    cases r with
    | none => rw [← (heq : s = l)]
    | some r => exact absurd ⟨l, r, by simp [(heq : s = l ++ ':' :: ':' :: r)]⟩ h

lemma splitDouble_append {l r : List Char} (h : ¬ [':', ':'] <:+: l) (hsuffix : ¬ [':'] <:+ l) :
    splitDouble (l ++ ':' :: ':' :: r) = (l, some r) := by
  induction l with
  | nil => rfl
  | cons c l ih =>
    have hl : ¬ [':'] <:+ l := fun hs => hsuffix (hs.trans (List.suffix_cons c l))
    have hrec : splitDouble (c :: (l ++ ':' :: ':' :: r)) =
        (c :: (splitDouble (l ++ ':' :: ':' :: r)).1, (splitDouble (l ++ ':' :: ':' :: r)).2) := by
      rw [splitDouble]
      intro t hc ht
      subst hc
      cases l with
      | nil => exact hsuffix (List.suffix_refl _)
      | cons d l =>
        obtain ⟨rfl, -⟩ := List.cons.inj ht
        exact h ⟨[], l, rfl⟩
    rw [List.cons_append, hrec, ih (fun hi => h (hi.trans (List.infix_cons (List.infix_refl l)))) hl]

lemma not_double_of_groupsQuad {s : List Char} {vs : List ℕ} (h : GroupsQuad s vs) :
    ¬ [':', ':'] <:+: s ∧ ¬ [':'] <:+ s := by
  rcases h with ⟨parts, hparts, rfl⟩ | ⟨ps, vs', q, v, hps, hq, rfl, -⟩
  · by_cases hne : parts = []
    · subst hne
      decide
    · exact (intercalate_apart hne (part_apart hparts)).2.2
  · exact (intercalate_apart (by simp) (parts_apart hps hq)).2.2

/-- The groups that are read of an address without a zone. -/
lemma ipv6Words_iff {s : List Char} {words : List ℕ} : ipv6Words s = some words ↔ IPv6Plain s words := by
  unfold ipv6Words
  constructor
  · intro h
    have heq := splitDouble_eq s
    split at h
    · next l hs =>
      rw [hs] at heq
      obtain rfl : s = l := heq
      obtain ⟨hhalf, hlen⟩ := Option.filter_eq_some_iff.mp h
      exact .inl ⟨half_iff.mp hhalf, by simpa using hlen⟩
    · next l r hs =>
      rw [hs] at heq
      obtain rfl : s = l ++ ':' :: ':' :: r := heq
      obtain ⟨left, hl, h⟩ := Option.bind_eq_some_iff.mp h
      obtain ⟨right, hr, h⟩ := Option.bind_eq_some_iff.mp h
      split at h
      · next hlt =>
        obtain rfl := Option.some.inj h
        exact .inr ⟨l, r, left, right, half_iff.mp hl, half_iff.mp hr, by omega, rfl, rfl⟩
      · cases h
  · rintro (⟨hgroups, hlen⟩ | ⟨l, r, ls, rs, hl, hr, hlen, rfl, rfl⟩)
    · rw [splitDouble_of_single (not_double_of_groupsQuad hgroups).1]
      have hhalf : half true s = some words := half_iff.mpr hgroups
      simp [hhalf, hlen]
    · have hleft := not_double_of_groupsQuad (.inl hl)
      rw [splitDouble_append hleft.1 hleft.2]
      have hhalf : half false l = some ls := half_iff.mpr hl
      have hhalf' : half true r = some rs := half_iff.mpr hr
      simp only [hhalf, hhalf', Option.bind_eq_bind, Option.bind_some]
      rw [if_pos (by omega)]

/-! ### The two kinds -/

lemma ipv6Plain_colon {s : List Char} {words : List ℕ} (h : IPv6Plain s words) : ':' ∈ s := by
  rcases h with ⟨hgroups, hlen⟩ | ⟨l, r, ls, rs, -, -, -, rfl, -⟩
  · -- with no colon there is one part, which makes two groups at most
    by_contra hcolon
    have hone : ∀ parts : List (List Char), parts ≠ [] → (∀ part ∈ parts, part ≠ [] ∧ ':' ∉ part) →
        ':' ∉ [':'].intercalate parts → parts.length = 1 := by
      intro parts hne hparts hnot
      have hsplit := List.splitOn_intercalate ':' (fun p hp => (hparts p hp).2) hne
      rw [List.splitOn_eq_singleton hnot] at hsplit
      rw [← hsplit, List.length_singleton]
    rcases hgroups with ⟨parts, hparts, rfl⟩ | ⟨ps, vs', q, v, hps, hq, rfl, rfl⟩
    · have hne : parts ≠ [] := by
        rintro rfl
        rw [List.forall₂_nil_left_iff.mp hparts] at hlen
        cases hlen
      have := hone parts hne (part_apart hparts) hcolon
      have := hparts.length_eq
      omega
    · have h1 := hone (ps ++ [q]) (by simp) (parts_apart hps hq) hcolon
      have h2 := hps.length_eq
      rw [List.length_append, List.length_singleton] at h1
      simp only [List.length_append, List.length_cons, List.length_nil] at hlen
      omega
  · simp

/-- The text of an address of version 6 is the address and its zone. -/
lemma ipv6Text_split {s : List Char} {v : ℕ} (h : IPv6Text s v) :
    ∃ words, IPv6Plain (s.takeWhile (· ≠ '%')) words ∧ v = numeral words ∧
      (s.dropWhile (· ≠ '%') = [] ∨ (2 ≤ (s.dropWhile (· ≠ '%')).length ∧
        (s.dropWhile (· ≠ '%')).tail.all zoneChar = true)) := by
  obtain ⟨a, zone, words, rfl, ha, rfl, hzone⟩ := h
  have hall : ∀ c ∈ a, decide (c ≠ '%') = true := by
    intro c hc
    refine decide_eq_true ?_
    rintro rfl
    rcases ha.chars '%' hc with h | h | h
    · exact absurd h (by decide)
    · exact absurd h (by decide)
    · exact absurd h (by decide)
  refine ⟨words, ?_, rfl, ?_⟩
  · rw [List.takeWhile_append_of_pos hall]
    rcases hzone with rfl | ⟨z, rfl, -⟩
    · simpa using ha
    · rw [List.takeWhile_cons_of_neg (by decide), List.append_nil]
      exact ha
  · rw [List.dropWhile_append_of_pos hall]
    rcases hzone with rfl | ⟨z, rfl, hne, hz⟩
    · exact .inl rfl
    · rw [List.dropWhile_cons_of_neg (by decide)]
      refine .inr ⟨?_, hz⟩
      have := List.length_pos_iff.mpr hne
      rw [List.length_cons]
      omega

lemma isIP_four (s : String) : isIP s = 4 ↔ ∃ v, IPv4Text s.toList v := by
  simp only [← ipv4Int_iff, ← Option.isSome_iff_exists]
  unfold isIP
  simp only
  split
  · next h => exact iff_of_true rfl h
  · next h =>
    split
    · exact iff_of_false (by decide) h
    · exact iff_of_false (by decide) h

lemma isIP_six (s : String) : isIP s = 6 ↔ ∃ v, IPv6Text s.toList v := by
  unfold isIP
  simp only
  split
  · next hfour =>
    refine iff_of_false (by decide) ?_
    rintro ⟨v, hsix⟩
    obtain ⟨w, hw⟩ := Option.isSome_iff_exists.mp hfour
    obtain ⟨words, ha, -⟩ := ipv6Text_split hsix
    exact (quad_apart (ipv4Int_iff.mp hw)).2 ((List.takeWhile_prefix _).subset (ipv6Plain_colon ha))
  split
  · next hsix =>
    obtain ⟨hwords, hzone⟩ := hsix
    obtain ⟨words, hwords⟩ := Option.isSome_iff_exists.mp hwords
    refine iff_of_true rfl ⟨numeral words, s.toList.takeWhile (· ≠ '%'), s.toList.dropWhile (· ≠ '%'), words,
      List.takeWhile_append_dropWhile.symm, ipv6Words_iff.mp hwords, rfl, hzone.imp_right fun ⟨hlen, hall⟩ => ?_⟩
    cases hdrop : s.toList.dropWhile (· ≠ '%') with
    | nil =>
      rw [hdrop] at hlen
      cases hlen
    | cons c z =>
      have hc := List.head?_dropWhile_not (fun c => decide (c ≠ '%')) s.toList
      rw [hdrop] at hc hlen hall
      obtain rfl : c = '%' := by simpa using hc
      refine ⟨z, rfl, ?_, hall⟩
      rintro rfl
      simp at hlen
  · next hsix =>
    refine iff_of_false (by decide) ?_
    rintro ⟨v, h⟩
    obtain ⟨words, ha, -, hzone⟩ := ipv6Text_split h
    exact hsix ⟨by rw [ipv6Words_iff.mpr ha]; rfl, hzone⟩

end ShadeTree.Gateway
