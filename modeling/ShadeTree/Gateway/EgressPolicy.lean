import Mathlib
import ShadeTree.Gateway.EgressTarget
import ShadeTree.Lib.Text

/-!
# The policy on targets (`makeEgressPolicy` in `gateway/gateway.mjs`)

A list of patterns that allow and a list of patterns that deny; a target needs a pattern of the first and none of
the second.  A host and the same host with the root dot behind it are one name, and so is any case of its letters;
the policy is compared with the verdict that depends on names only.  The comparison comes out well unless a
pattern is written with the root dot, or the host with two dots at its end.
-/

namespace ShadeTree.Gateway

open ShadeTree.Lib ShadeTree.Lib.Text

/-- A parsed pattern; the port is `none` for `*`. -/
structure Pattern where
  host : List Char
  port : Option ℕ
  deriving DecidableEq, Repr

section
variable (L : LowerCase)

/-- `parseEgressPattern(spec)`: the host is what is before the last colon. -/
def parseEgressPattern (spec : List Char) : Option Pattern :=
  let portStr := spec.rtakeWhile (· ≠ ':')
  let host := (spec.rdropWhile (· ≠ ':')).dropLast
  if ':' ∉ spec ∨ host = [] ∨ portStr = [] then none
  else if portStr = ['*'] then some ⟨L.lower host, none⟩
  else if ¬ (portStr.all Char.isDigit ∧ portStr.length ≤ 5) then none
  else
    let port := portStr.foldl (fun n c => 10 * n + (c.toNat - '0'.toNat)) 0
    if port < 1 ∨ 65535 < port then none else some ⟨L.lower host, some port⟩

/-- `matchEgressPattern(pat, host, port)`. -/
def matchEgressPattern (pat : Pattern) (host : List Char) (port : ℕ) : Bool :=
  if pat.port ≠ none ∧ pat.port ≠ some port then false
  else if pat.host = ['*'] then true
  else if ['*', '.'] <+: pat.host then pat.host.drop 1 <:+ host
  else pat.host = host

/-- `parseList(spec)`: what is not a pattern is dropped. -/
def parseList (spec : String) : List Pattern :=
  (((spec.toList.splitOn ',').map trim).filter (· ≠ [])).filterMap (parseEgressPattern L)

/-- `replace(/\.$/, "")`. -/
def dropDot (s : List Char) : List Char := if ['.'] <:+ s then s.dropLast else s

/-- What `isAllowed` makes of its arguments before it looks at a pattern: the host in its canonical form and the
port, unless one of them is refused.  `host` is `none` if it is no string, and `port` is `Number(port)` if that
is an integer. -/
def canonicalTarget (host : Option String) (port : Option ℤ) : Option (List Char × ℕ) :=
  match host, port with
  | some host, some p =>
    if host = "" ∨ p < 1 ∨ 65535 < p then none
    else
      let h := dropDot (L.lower host.toList)
      if h = [] ∨ ['.'] <+: h ∨ ['.', '.'] <:+: h then none else some (h, p.toNat)
  | _, _ => none

/-- `isAllowed(host, port)` of the policy with these patterns. -/
def isAllowed (allows denies : List Pattern) (host : Option String) (port : Option ℤ) : Bool :=
  match canonicalTarget L host port with
  | none => false
  | some (h, p) =>
    if denies.any fun pat => matchEgressPattern pat h p then false
    else allows.any fun pat => matchEgressPattern pat h p

/-- `makeEgressPolicy({ allow, deny })`; `none` stands for `undefined`. -/
def makeEgressPolicy (allow deny : Option String) : Option String → Option ℤ → Bool :=
  isAllowed L (parseList L (allow.getD "*:443")) (parseList L (deny.getD ""))

/-! ### Names -/

/-- Two spellings of one name: they differ in the case of letters and in the root dot. -/
def SameName (host host' : String) : Prop :=
  (dropDot host.toList).map asciiLower = (dropDot host'.toList).map asciiLower

instance (host host' : String) : Decidable (SameName host host') :=
  inferInstanceAs (Decidable ((dropDot host.toList).map asciiLower = _))

/-- A label of the name is empty; the root is no label. -/
def HasEmptyLabel (host : String) : Prop := [] ∈ (dropDot host.toList).splitOn '.'

instance (host : String) : Decidable (HasEmptyLabel host) :=
  inferInstanceAs (Decidable ([] ∈ (dropDot host.toList).splitOn '.'))

/-- The pattern without the root dot; in `*.` there is no name to write it behind. -/
def Pattern.plain (pat : Pattern) : Pattern :=
  { pat with host := if pat.host = ['*', '.'] then pat.host else dropDot pat.host }

/-- What the verdict on a target is to be: the same for every spelling of it when the patterns are spelled plainly,
refused if a deny pattern names it, refused if a label is empty. -/
structure ByName (allows denies : List Pattern) (host : String) (port : Option ℤ) : Prop where
  same_verdict : ¬ HasEmptyLabel host → ∀ host', SameName host host' →
    isAllowed L allows denies (some host) port =
      isAllowed L (allows.map Pattern.plain) (denies.map Pattern.plain) (some host') port
  deny_wins : ∀ h p, canonicalTarget L (some host) port = some (h, p) →
    ∀ pat ∈ denies, matchEgressPattern pat.plain h p = true → isAllowed L allows denies (some host) port = false
  no_empty_label : HasEmptyLabel host → isAllowed L allows denies (some host) port = false

/-- The spellings that the code tells apart are not there, or make no difference. -/
structure WellSpelled (allows denies : List Pattern) (h : List Char) (p : ℕ) : Prop where
  /-- If a dot is left at the end of the host, a deny pattern matches it like that, or no allow pattern does. -/
  host : ['.'] <:+ h → (∃ pat ∈ denies, matchEgressPattern pat h p = true) ∨
    ∀ pat ∈ allows, matchEgressPattern pat h p = false
  /-- If a deny pattern with the root dot names the host, one without it does too, or no allow pattern matches. -/
  deny : ¬ ['.'] <:+ h → ∀ pat ∈ denies, pat.plain ≠ pat → matchEgressPattern pat.plain h p = true →
    (∃ pat ∈ denies, matchEgressPattern pat h p = true) ∨ ∀ pat ∈ allows, matchEgressPattern pat h p = false
  /-- If an allow pattern with the root dot names the host, one without it does too, or a deny pattern names it. -/
  allow : ¬ ['.'] <:+ h → ∀ pat ∈ allows, pat.plain ≠ pat → matchEgressPattern pat.plain h p = true →
    (∃ pat ∈ allows, matchEgressPattern pat h p = true) ∨ ∃ pat ∈ denies, matchEgressPattern pat.plain h p = true

/-! ### Spellings of the host -/

variable {L}

lemma dropDot_append_dot (s : List Char) : dropDot (s ++ ['.']) = s := by
  unfold dropDot
  rw [if_pos (List.suffix_append s ['.']), List.dropLast_concat]

lemma dropDot_lower (s : List Char) : dropDot (L.lower s) = L.lower (dropDot s) := by
  by_cases hdot : ['.'] <:+ s
  · obtain ⟨u, rfl⟩ := hdot
    rw [L.dot, dropDot_append_dot, dropDot_append_dot]
  · have hlower : ¬ ['.'] <:+ L.lower s := mt L.dot_suffix hdot
    unfold dropDot
    rw [if_neg hdot, if_neg hlower]

lemma hasEmptyLabel_iff (host : String) :
    HasEmptyLabel host ↔ [] ∈ (L.lower (dropDot host.toList)).splitOn '.' := (L.empty_part _).symm

lemma SameName.hasEmptyLabel {host host' : String} (h : SameName host host') :
    HasEmptyLabel host ↔ HasEmptyLabel host' := by
  rw [hasEmptyLabel_iff (L := LowerCase.ascii), hasEmptyLabel_iff (L := LowerCase.ascii), LowerCase.ascii.caseless h]

lemma ne_empty_of_labels {host : String} (h : ¬ HasEmptyLabel host) : host ≠ "" := by
  rintro rfl
  exact h (by decide)

/-- What is known of a target that the patterns are looked up for. -/
lemma canonicalTarget_some {host : String} {port : Option ℤ} {h : List Char} {p : ℕ}
    (ht : canonicalTarget L (some host) port = some (h, p)) : HasEmptyLabel host ↔ ['.'] <:+ h := by
  cases port with
  | none => cases ht
  | some port =>
    simp only [canonicalTarget] at ht
    split at ht
    · cases ht
    split at ht
    · cases ht
    · next hlabels =>
      obtain ⟨rfl, -⟩ := Prod.mk.inj (Option.some.inj ht)
      obtain ⟨hne, hlead, hinner⟩ := not_or.mp hlabels |>.imp_right not_or.mp
      rw [hasEmptyLabel_iff (L := L), ← dropDot_lower, nil_mem_splitOn]
      have hhead : (dropDot (L.lower host.toList)).head? ≠ some '.' := by
        intro hhead
        obtain ⟨tl, htl⟩ := List.head?_eq_some_iff.mp hhead
        exact hlead (htl ▸ ⟨tl, rfl⟩)
      rw [or_iff_right hne, or_iff_right hhead, or_iff_right hinner]

lemma canonicalTarget_sameName {host host' : String} (hlabels : ¬ HasEmptyLabel host) (h : SameName host host')
    (port : Option ℤ) : canonicalTarget L (some host') port = canonicalTarget L (some host) port := by
  have hne := ne_empty_of_labels hlabels
  have hne' := ne_empty_of_labels (mt h.hasEmptyLabel.mpr hlabels)
  have hlower : dropDot (L.lower host'.toList) = dropDot (L.lower host.toList) := by
    rw [dropDot_lower, dropDot_lower, L.caseless h]
  cases port with
  | none => rfl
  | some p =>
    simp only [canonicalTarget, hlower, hne, hne', false_or]

/-! ### Spellings of the patterns -/

/-- A host without a dot at its end is matched by plain patterns only. -/
lemma plain_of_match {pat : Pattern} {h : List Char} {p : ℕ} (hdot : ¬ ['.'] <:+ h)
    (hmatch : matchEgressPattern pat h p = true) : pat.plain = pat := by
  have hhost : ¬ ['.'] <:+ pat.host := by
    intro hsuffix
    unfold matchEgressPattern at hmatch
    split at hmatch
    · cases hmatch
    split at hmatch
    · next hstar =>
      rw [hstar] at hsuffix
      exact absurd hsuffix (by decide)
    split at hmatch
    · next hwild =>
      obtain ⟨r, hr⟩ := hwild
      rw [← hr] at hsuffix hmatch
      have htail : ['.'] <:+ '.' :: r := (List.suffix_cons_iff.mp hsuffix).resolve_left (by simp)
      exact hdot (htail.trans (of_decide_eq_true hmatch))
    · exact hdot (of_decide_eq_true hmatch ▸ hsuffix)
  unfold Pattern.plain dropDot
  rw [if_neg hhost, ite_self]

/-- The case of the letters of a pattern makes no difference. -/
lemma parseEgressPattern_asciiLower (spec : List Char) :
    parseEgressPattern L (spec.map asciiLower) = parseEgressPattern L spec := by
  have hcolon : ∀ c, (asciiLower c = ':') = (c = ':') := fun c => propext (asciiLower_eq_iff (by decide) c)
  have hport : (spec.map asciiLower).rtakeWhile (· ≠ ':') = (spec.rtakeWhile (· ≠ ':')).map asciiLower := by
    rw [rtakeWhile_map]
    simp only [ne_eq, hcolon]
  have hhost : ((spec.map asciiLower).rdropWhile (· ≠ ':')).dropLast =
      ((spec.rdropWhile (· ≠ ':')).dropLast).map asciiLower := by
    rw [rdropWhile_map, List.map_dropLast]
    simp only [ne_eq, hcolon]
  have hmem : ':' ∉ spec.map asciiLower ↔ ':' ∉ spec := by
    simp only [List.mem_map, hcolon, exists_eq_right]
  have hstar : ∀ port : List Char, port.map asciiLower = ['*'] ↔ port = ['*'] := by
    intro port
    rw [List.map_eq_singleton_iff]
    refine ⟨fun ⟨c, hc, he⟩ => ?_, fun h => ⟨'*', h, rfl⟩⟩
    rw [hc, (asciiLower_eq_iff (by decide) c).mp he]
  have hlower : L.lower (((spec.rdropWhile (· ≠ ':')).dropLast).map asciiLower) =
      L.lower ((spec.rdropWhile (· ≠ ':')).dropLast) := by
    refine L.caseless ?_
    rw [List.map_map]
    exact List.map_congr_left fun c _ => asciiLower_idem c
  have hall : ∀ port : List Char, (port.map asciiLower).all Char.isDigit = port.all Char.isDigit := by
    intro port
    rw [List.all_map]
    exact congrArg port.all (funext isDigit_asciiLower)
  unfold parseEgressPattern
  simp only [hport, hhost, hmem, hstar, hlower, hall, List.map_eq_nil_iff, List.length_map]
  split
  · rfl
  split
  · rfl
  split
  · rfl
  · next hdigits =>
    rw [map_asciiLower_of_isDigit (not_not.mp hdigits).1]

lemma parseList_asciiLower (spec : String) :
    parseList L (String.ofList (spec.toList.map asciiLower)) = parseList L spec := by
  unfold parseList
  have htrim : ∀ parts : List (List Char), (parts.map (List.map asciiLower)).map trim =
      (parts.map trim).map (List.map asciiLower) := by
    intro parts
    rw [List.map_map, List.map_map]
    exact List.map_congr_left fun part _ => trim_map_asciiLower part
  rw [String.toList_ofList, splitOn_map (asciiLower_eq_iff (by decide)), htrim, List.filter_map, List.filterMap_map]
  simp only [Function.comp_def, parseEgressPattern_asciiLower, ne_eq, List.map_eq_nil_iff]

variable {allows denies : List Pattern} {host : String} {port : Option ℤ} {h : List Char} {p : ℕ}

lemma isAllowed_eq (ht : canonicalTarget L (some host) port = some (h, p)) :
    isAllowed L allows denies (some host) port = true ↔
      (∀ pat ∈ denies, matchEgressPattern pat h p = false) ∧ ∃ pat ∈ allows, matchEgressPattern pat h p = true := by
  simp only [isAllowed, ht]
  split
  · next hdeny =>
    obtain ⟨pat, hmem, hmatch⟩ := List.any_eq_true.mp hdeny
    refine ⟨fun h => (by cases h), fun ⟨hnone, _⟩ => ?_⟩
    rw [hnone pat hmem] at hmatch
    cases hmatch
  · next hdeny =>
    rw [List.any_eq_true]
    refine (and_iff_right fun pat hmem => ?_).symm
    by_contra hmatch
    exact hdeny (List.any_eq_true.mpr ⟨pat, hmem, by simpa using hmatch⟩)

lemma exists_plain {pats : List Pattern} (hdot : ¬ ['.'] <:+ h)
    (hmatch : ∃ pat ∈ pats, matchEgressPattern pat h p = true) :
    ∃ pat ∈ pats, matchEgressPattern pat.plain h p = true := by
  obtain ⟨pat, hmem, hm⟩ := hmatch
  exact ⟨pat, hmem, by rwa [plain_of_match hdot hm]⟩

lemma isAllowed_plain (ht : canonicalTarget L (some host) port = some (h, p)) :
    isAllowed L (allows.map Pattern.plain) (denies.map Pattern.plain) (some host) port = true ↔
      (∀ pat ∈ denies, matchEgressPattern pat.plain h p = false) ∧
        ∃ pat ∈ allows, matchEgressPattern pat.plain h p = true := by
  rw [isAllowed_eq ht, List.forall_mem_map]
  simp only [List.mem_map, exists_exists_and_eq_and]

lemma not_isAllowed_iff (ht : canonicalTarget L (some host) port = some (h, p)) :
    isAllowed L allows denies (some host) port = false ↔
      (∃ pat ∈ denies, matchEgressPattern pat h p = true) ∨ ∀ pat ∈ allows, matchEgressPattern pat h p = false := by
  rw [← Bool.not_eq_true, isAllowed_eq ht, not_and_or]
  simp only [not_forall, not_exists, not_and, Bool.not_eq_false, Bool.not_eq_true, exists_prop]

lemma isAllowed_sameName {host' : String} (hlabels : ¬ HasEmptyLabel host) (hsame : SameName host host') :
    isAllowed L allows denies (some host') port = isAllowed L allows denies (some host) port := by
  simp only [isAllowed, canonicalTarget_sameName hlabels hsame port]

/-- The verdict is the one on names where the spellings make no difference. -/
lemma WellSpelled.byName (ht : canonicalTarget L (some host) port = some (h, p))
    (hw : WellSpelled allows denies h p) : ByName L allows denies host port := by
  have hempty : ['.'] <:+ h → isAllowed L allows denies (some host) port = false :=
    fun hdot => (not_isAllowed_iff ht).mpr (hw.host hdot)
  have hdenied : ∀ pat ∈ denies, matchEgressPattern pat.plain h p = true →
      isAllowed L allows denies (some host) port = false := by
    intro pat hmem hmatch
    by_cases hdot : ['.'] <:+ h
    · exact hempty hdot
    · rw [not_isAllowed_iff ht]
      by_cases hplain : pat.plain = pat
      · exact .inl ⟨pat, hmem, hplain ▸ hmatch⟩
      · exact hw.deny hdot pat hmem hplain hmatch
  refine ⟨fun hlabels host' hsame => ?_, fun h' p' ht' pat hmem hmatch => ?_, fun hlabels => ?_⟩
  · have hdot : ¬ ['.'] <:+ h := mt (canonicalTarget_some ht).mpr hlabels
    rw [isAllowed_sameName hlabels hsame, Bool.eq_iff_iff, isAllowed_plain ht]
    constructor
    · intro hallowed
      refine ⟨fun pat hmem => ?_, exists_plain hdot ((isAllowed_eq ht).mp hallowed).2⟩
      by_contra hmatch
      rw [hdenied pat hmem (by simpa using hmatch)] at hallowed
      cases hallowed
    · rintro ⟨hnone, a, ha, hma⟩
      have hnone' : ∀ pat ∈ denies, matchEgressPattern pat h p = false := by
        intro pat hmem
        by_contra hmatch
        have hplain := plain_of_match hdot (by simpa using hmatch)
        rw [← hplain, hnone pat hmem] at hmatch
        exact hmatch rfl
      refine (isAllowed_eq ht).mpr ⟨hnone', ?_⟩
      by_cases hplain : a.plain = a
      · exact ⟨a, ha, hplain ▸ hma⟩
      · refine (hw.allow hdot a ha hplain hma).resolve_right ?_
        rintro ⟨d, hd, hmd⟩
        rw [hnone d hd] at hmd
        cases hmd
  · obtain ⟨rfl, rfl⟩ := Prod.mk.inj (Option.some.inj (ht.symm.trans ht'))
    exact hdenied pat hmem hmatch
  · exact hempty ((canonicalTarget_some ht).mp hlabels)

/-- No dot is written that could make a difference. -/
lemma wellSpelled_of_plain (hdot : ¬ ['.'] <:+ h) (hallow : ∀ pat ∈ allows, pat.plain = pat)
    (hdeny : ∀ pat ∈ denies, pat.plain = pat) : WellSpelled allows denies h p where
  host hsuffix := absurd hsuffix hdot
  deny _ pat hmem hne := absurd (hdeny pat hmem) hne
  allow _ pat hmem hne := absurd (hallow pat hmem) hne

lemma ByName.wellSpelled (ht : canonicalTarget L (some host) port = some (h, p))
    (hb : ByName L allows denies host port) : WellSpelled allows denies h p := by
  refine ⟨fun hdot => ?_, fun _ pat hmem _ hmatch => ?_, fun hdot a ha _ hma => ?_⟩
  · exact (not_isAllowed_iff ht).mp (hb.no_empty_label ((canonicalTarget_some ht).mpr hdot))
  · exact (not_isAllowed_iff ht).mp (hb.deny_wins h p ht pat hmem hmatch)
  · -- the verdict on names allows the target unless a deny pattern names it, so the code has to allow it too
    by_cases hdeny : ∃ d ∈ denies, matchEgressPattern d.plain h p = true
    · exact .inr hdeny
    · left
      have hlabels : ¬ HasEmptyLabel host := mt (canonicalTarget_some ht).mp hdot
      have hplain : isAllowed L (allows.map Pattern.plain) (denies.map Pattern.plain) (some host) port = true := by
        refine (isAllowed_plain ht).mpr ⟨fun d hd => ?_, a, ha, hma⟩
        by_contra hmd
        exact hdeny ⟨d, hd, by simpa using hmd⟩
      rw [← hb.same_verdict hlabels host rfl] at hplain
      exact ((isAllowed_eq ht).mp hplain).2

end

section
variable (L : LowerCase)

/-- Two texts of one list of patterns: they differ in the root dots. -/
def SamePatterns (spec spec' : String) : Prop :=
  (parseList L spec).map Pattern.plain = (parseList L spec').map Pattern.plain

instance (spec spec' : String) : Decidable (SamePatterns L spec spec') :=
  inferInstanceAs (Decidable ((parseList L spec).map Pattern.plain = _))

end

end ShadeTree.Gateway
