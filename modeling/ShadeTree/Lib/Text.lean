import Mathlib

/-!
# Text

White space as JavaScript has it, `trim`, the places where a separator leaves an empty part, and what is known of
lowering the case of a text without its tables.
-/

namespace ShadeTree.Lib.Text

/-- The white space and the line ends of JavaScript. -/
def isWhiteSpace (c : Char) : Bool :=
  c.toNat ∈ [0x09, 0x0a, 0x0b, 0x0c, 0x0d, 0x20, 0xa0, 0x1680, 0x2028, 0x2029, 0x202f, 0x205f, 0x3000, 0xfeff] ||
    decide (0x2000 ≤ c.toNat ∧ c.toNat ≤ 0x200a)

def trim (s : List Char) : List Char := (s.dropWhile isWhiteSpace).rdropWhile isWhiteSpace

/-- What a test finds of all items. -/
lemma forall_of_all {β : Type} {p : β → Prop} [DecidablePred p] {l : List β}
    (h : (l.all fun b => decide (p b)) = true) : ∀ b ∈ l, p b :=
  fun b hb => of_decide_eq_true (List.all_eq_true.mp h b hb)

/-! ### Empty parts -/

variable {α : Type} [DecidableEq α]

lemma splitOn_cons_self (a : α) (s : List α) : (a :: s).splitOn a = [] :: s.splitOn a := by
  rw [List.splitOn_cons_eq_if_modifyHead, if_pos (beq_self_eq_true a)]

lemma splitOn_cons_of_ne {a b : α} (h : b ≠ a) (s : List α) :
    (b :: s).splitOn a = (s.splitOn a).modifyHead (b :: ·) := by
  rw [List.splitOn_cons_eq_if_modifyHead, if_neg (by simpa using h)]

/-- The parts behind the first one: one is empty where two separators meet or the last one ends the text. -/
lemma nil_mem_tail_splitOn {a : α} {s : List α} :
    [] ∈ (s.splitOn a).tail ↔ [a, a] <:+: s ∨ [a] <:+ s := by
  induction s with
  | nil => simp
  | cons b s ih =>
    by_cases hb : b = a
    · subst hb
      rw [splitOn_cons_self, List.tail_cons]
      cases s with
      | nil => simp
      | cons c s =>
        by_cases hc : c = b
        · subst hc
          rw [splitOn_cons_self]
          exact ⟨fun _ => .inl ⟨[], s, rfl⟩, fun _ => List.mem_cons_self⟩
        · rw [splitOn_cons_of_ne hc] at ih ⊢
          obtain ⟨part, parts, hparts⟩ := List.exists_cons_of_ne_nil (List.splitOn_ne_nil b s)
          rw [hparts, List.modifyHead_cons, List.mem_cons]
          rw [hparts, List.modifyHead_cons, List.tail_cons] at ih
          have hinner : [b, b] <:+: b :: c :: s ↔ [b, b] <:+: c :: s := by
            rw [List.infix_cons_iff]
            refine or_iff_right fun h => hc ?_
            exact (List.cons_prefix_cons.mp (List.cons_prefix_cons.mp h).2).1.symm
          have hsuffix : [b] <:+ b :: c :: s ↔ [b] <:+ c :: s := by
            rw [List.suffix_cons_iff]
            exact or_iff_right (by simp)
          rw [hinner, hsuffix, ← ih]
          exact or_iff_right (by simp)
    · rw [splitOn_cons_of_ne hb]
      have htail : ((s.splitOn a).modifyHead (b :: ·)).tail = (s.splitOn a).tail := by
        cases s.splitOn a <;> rfl
      have hinner : [a, a] <:+: b :: s ↔ [a, a] <:+: s := by
        rw [List.infix_cons_iff]
        exact or_iff_right fun h => hb (List.cons_prefix_cons.mp h).1.symm
      have hsuffix : [a] <:+ b :: s ↔ [a] <:+ s := by
        rw [List.suffix_cons_iff]
        exact or_iff_right fun h => hb (List.cons.inj h).1.symm
      rw [htail, hinner, hsuffix, ih]

/-- Where a part of a text is empty. -/
lemma nil_mem_splitOn {a : α} {s : List α} :
    [] ∈ s.splitOn a ↔ s = [] ∨ s.head? = some a ∨ [a, a] <:+: s ∨ [a] <:+ s := by
  cases s with
  | nil => simp
  | cons b s =>
    rw [← nil_mem_tail_splitOn]
    by_cases hb : b = a
    · subst hb
      simp [splitOn_cons_self]
    · obtain ⟨part, parts, hparts⟩ := List.exists_cons_of_ne_nil (List.splitOn_ne_nil a s)
      rw [splitOn_cons_of_ne hb, hparts]
      simp [hb]

/-! ### Parts with a separator between them -/

lemma mem_intercalate {β : Type} {sep : List β} {parts : List (List β)} {x : β} (h : x ∈ sep.intercalate parts) :
    x ∈ sep ∨ ∃ part ∈ parts, x ∈ part := by
  induction parts with
  | nil => cases h
  | cons part parts ih =>
    cases parts with
    | nil =>
      rw [List.intercalate_singleton] at h
      exact .inr ⟨part, List.mem_cons_self, h⟩
    | cons part' parts =>
      rw [List.intercalate_cons_cons, List.mem_append, List.mem_append] at h
      rcases h with (h | h) | h
      · exact .inr ⟨part, List.mem_cons_self, h⟩
      · exact .inl h
      · exact (ih h).imp_right fun ⟨p, hp, hx⟩ => ⟨p, List.mem_cons_of_mem _ hp, hx⟩

lemma map_intercalate {γ β : Type} (f : γ → β) (sep : List γ) (parts : List (List γ)) :
    (sep.intercalate parts).map f = (sep.map f).intercalate (parts.map (List.map f)) := by
  induction parts with
  | nil => rfl
  | cons part parts ih =>
    cases parts with
    | nil => simp
    | cons part' parts =>
      rw [List.intercalate_cons_cons, List.map_append, List.map_append, ih]
      simp only [List.map_cons, List.intercalate_cons_cons]

/-- What stands before the last part does not depend on it. -/
lemma exists_intercalate_concat {β : Type} (sep : List β) (parts : List (List β)) :
    ∃ init, (init = [] ∨ sep <:+ init) ∧ ∀ last rest, sep.intercalate (parts ++ last :: rest) =
      init ++ sep.intercalate (last :: rest) := by
  induction parts with
  | nil => exact ⟨[], .inl rfl, fun last rest => rfl⟩
  | cons part parts ih =>
    obtain ⟨init, hinit, heq⟩ := ih
    refine ⟨part ++ sep ++ init, .inr ?_, fun last rest => ?_⟩
    · rcases hinit with rfl | hinit
      · rw [List.append_nil]
        exact List.suffix_append _ _
      · exact hinit.trans (List.suffix_append _ _)
    · have hne : parts ++ last :: rest ≠ [] := by simp
      rw [List.cons_append, List.intercalate_cons_of_ne_nil hne, heq]
      simp [List.append_assoc]

/-- Between parts that are not empty no two separators meet, and none stands at an end. -/
lemma intercalate_apart {a : α} {parts : List (List α)} (hne : parts ≠ []) (hpart : ∀ part ∈ parts, part ≠ [] ∧ a ∉ part) :
    [a].intercalate parts ≠ [] ∧ ([a].intercalate parts).head? ≠ some a ∧ ¬ [a, a] <:+: [a].intercalate parts ∧
      ¬ [a] <:+ [a].intercalate parts := by
  have hsplit : ([a].intercalate parts).splitOn a = parts :=
    List.splitOn_intercalate a (fun part hp => (hpart part hp).2) hne
  have hnil : [] ∉ ([a].intercalate parts).splitOn a := by
    rw [hsplit]
    exact fun hmem => (hpart [] hmem).1 rfl
  rw [nil_mem_splitOn] at hnil
  simpa only [not_or] using hnil

lemma count_intercalate {a : α} {parts : List (List α)} (hne : parts ≠ []) :
    ([a].intercalate parts).count a + 1 = (parts.map (List.count a)).sum + parts.length := by
  induction parts with
  | nil => exact absurd rfl hne
  | cons part parts ih =>
    cases parts with
    | nil => simp
    | cons part' parts =>
      have ih := ih (List.cons_ne_nil _ _)
      rw [List.intercalate_cons_cons, List.map_cons, List.sum_cons]
      simp only [List.count_append, List.count_singleton_self, List.length_cons] at ih ⊢
      omega

/-- Parts without the separator are told apart from any parts of the same number. -/
theorem intercalate_inj {a : α} {parts parts' : List (List α)} (hlen : parts.length = parts'.length)
    (hpart : ∀ part ∈ parts', a ∉ part) (h : [a].intercalate parts = [a].intercalate parts') : parts = parts' := by
  by_cases hne : parts' = []
  · rw [hne] at hlen ⊢
    exact List.length_eq_zero_iff.mp hlen
  have hne' : parts ≠ [] := by
    rintro rfl
    exact hne (List.length_eq_zero_iff.mp hlen.symm)
  -- the separators of the text are those between its parts, so that none is left for a part
  have hcount := count_intercalate (a := a) hne'
  have hcount' := count_intercalate (a := a) hne
  have hzero : (parts'.map (List.count a)).sum = 0 := by
    rw [List.sum_eq_zero_iff_forall_eq_nat]
    intro n hn
    obtain ⟨part, hp, rfl⟩ := List.mem_map.mp hn
    exact List.count_eq_zero.mpr (hpart part hp)
  have hsum : (parts.map (List.count a)).sum = 0 := by
    rw [h] at hcount
    omega
  have hapart : ∀ part ∈ parts, a ∉ part := by
    intro part hp
    exact List.count_eq_zero.mp (List.sum_eq_zero_iff_forall_eq_nat.mp hsum _ (List.mem_map_of_mem hp))
  rw [← List.splitOn_intercalate a hapart hne', h, List.splitOn_intercalate a hpart hne]

lemma mapM_eq_some {γ β : Type} {f : γ → Option β} {l : List γ} {r : List β} :
    l.mapM f = some r ↔ l.map f = r.map some := by
  induction l generalizing r with
  | nil =>
    rw [List.mapM_nil]
    exact ⟨fun h => Option.some.inj h ▸ rfl, fun h => congrArg some (List.map_eq_nil_iff.mp h.symm).symm⟩
  | cons x l ih =>
    rw [List.mapM_cons, List.map_cons]
    constructor
    · intro h
      obtain ⟨y, hy, h⟩ := Option.bind_eq_some_iff.mp h
      obtain ⟨ys, hys, h⟩ := Option.bind_eq_some_iff.mp h
      obtain rfl := Option.some.inj h
      rw [hy, ih.mp hys, List.map_cons]
    · intro h
      obtain ⟨y, ys, rfl, hy, hys⟩ := List.map_eq_cons_iff.mp h.symm
      rw [← hy, ih.mpr hys.symm]
      rfl

/-! ### Case -/

def asciiLower (c : Char) : Char := if 'A' ≤ c ∧ c ≤ 'Z' then Char.ofNat (c.toNat + 32) else c

/-- `toLowerCase`, with what holds of it whatever the tables say: ASCII letters are lowered in every place, and
dots stay where they are. -/
structure LowerCase where
  lower : List Char → List Char
  caseless : ∀ {s t : List Char}, s.map asciiLower = t.map asciiLower → lower s = lower t
  dot : ∀ s : List Char, lower (s ++ ['.']) = lower s ++ ['.']
  dot_suffix : ∀ {s : List Char}, ['.'] <:+ lower s → ['.'] <:+ s
  empty_part : ∀ s : List Char, [] ∈ (lower s).splitOn '.' ↔ [] ∈ s.splitOn '.'

lemma splitOn_map {β : Type} [DecidableEq β] {f : α → β} {a : α} {b : β} (h : ∀ x, f x = b ↔ x = a) (s : List α) :
    (s.map f).splitOn b = (s.splitOn a).map (List.map f) := by
  induction s with
  | nil => simp
  | cons x s ih =>
    by_cases hx : x = a
    · rw [List.map_cons, (h x).mpr hx, hx, splitOn_cons_self, splitOn_cons_self, ih]
      rfl
    · rw [List.map_cons, splitOn_cons_of_ne (mt (h x).mp hx), splitOn_cons_of_ne hx, ih]
      cases s.splitOn a <;> rfl

/-- Lowering changes upper case letters only. -/
lemma asciiLower_or (c : Char) :
    asciiLower c = c ∨ (65 ≤ c.toNat ∧ c.toNat ≤ 90 ∧ (asciiLower c).toNat = c.toNat + 32) := by
  unfold asciiLower
  split
  · next h =>
    have hlow : 65 ≤ c.toNat := h.1
    have hhigh : c.toNat ≤ 90 := h.2
    refine .inr ⟨hlow, hhigh, ?_⟩
    rw [Char.ofNat, dif_pos (.inl (by omega))]
    rfl
  · exact .inl rfl

lemma asciiLower_not_upper (c : Char) : ¬ (65 ≤ (asciiLower c).toNat ∧ (asciiLower c).toNat ≤ 90) := by
  rcases asciiLower_or c with heq | ⟨hlow, hhigh, hval⟩
  · rintro ⟨hlow, hhigh⟩
    rw [heq] at hlow hhigh
    have hlower : asciiLower c = Char.ofNat (c.toNat + 32) := if_pos ⟨hlow, hhigh⟩
    have hval : (Char.ofNat (c.toNat + 32)).toNat = c.toNat + 32 := by
      rw [Char.ofNat, dif_pos (.inl (by omega))]
      rfl
    rw [← hlower, heq] at hval
    omega
  · omega

lemma asciiLower_eq_iff {d : Char} (hd : d.toNat < 65) (c : Char) : asciiLower c = d ↔ c = d := by
  rcases asciiLower_or c with heq | ⟨hlow, hhigh, hval⟩
  · rw [heq]
  · constructor
    · rintro rfl
      omega
    · rintro rfl
      omega

lemma asciiLower_idem (c : Char) : asciiLower (asciiLower c) = asciiLower c := by
  rcases asciiLower_or c with heq | ⟨hlow, hhigh, hval⟩
  · rw [heq, heq]
  · refine (asciiLower_or (asciiLower c)).resolve_right fun h => ?_
    omega

lemma isWhiteSpace_asciiLower (c : Char) : isWhiteSpace (asciiLower c) = isWhiteSpace c := by
  rcases asciiLower_or c with heq | ⟨hlow, hhigh, hval⟩
  · rw [heq]
  · have hnot : ∀ d : Char, 65 ≤ d.toNat → d.toNat ≤ 122 → isWhiteSpace d = false := by
      intro d hlo hhi
      simp only [isWhiteSpace, List.mem_cons, List.not_mem_nil, or_false, Bool.or_eq_false_iff, decide_eq_false_iff_not]
      omega
    rw [hnot c (by omega) (by omega), hnot _ (by omega) (by omega)]

lemma toNat_of_isDigit {c : Char} (h : c.isDigit = true) : 48 ≤ c.toNat ∧ c.toNat ≤ 57 := by
  simp only [Char.isDigit, Bool.and_eq_true, decide_eq_true_eq] at h
  exact h

/-- Digits without a zero in front are the text of their number. -/
lemma toDigits_ofDigitChars {s : List Char} (hne : s ≠ []) (hall : s.all Char.isDigit = true)
    (hlead : s.head? = some '0' → s.length = 1) : Nat.toDigits 10 (Nat.ofDigitChars 10 s 0) = s := by
  have hdigit : ∀ c : Char, c.isDigit = true → c.toNat - 48 < 10 ∧ Nat.digitChar (c.toNat - 48) = c := by
    intro c hc
    have := toNat_of_isDigit hc
    have hchar : ∀ d < 10, (Nat.digitChar d).toNat = d + 48 := by decide
    refine ⟨by omega, Char.toNat_inj.mp ?_⟩
    rw [hchar _ (by omega)]
    omega
  induction s using List.reverseRecOn with
  | nil => exact absurd rfl hne
  | append_singleton t c ih =>
    rw [List.all_append, Bool.and_eq_true] at hall
    obtain ⟨hlt, hchar⟩ := hdigit c (by simpa using hall.2)
    have hval : Nat.ofDigitChars 10 (t ++ [c]) 0 = 10 * Nat.ofDigitChars 10 t 0 + (c.toNat - 48) := by
      unfold Nat.ofDigitChars
      rw [List.foldl_append]
      rfl
    rw [hval]
    by_cases ht : t = []
    · subst ht
      have hzero : Nat.ofDigitChars 10 [] 0 = 0 := rfl
      rw [hzero, Nat.mul_zero, Nat.zero_add, Nat.toDigits_of_lt_base hlt, hchar]
      rfl
    · have hhead : t.head? ≠ some '0' := by
        intro hzero
        have := hlead (by rw [List.head?_append_of_ne_nil _ ht]; exact hzero)
        rw [List.length_append, List.length_singleton] at this
        exact ht (List.length_eq_zero_iff.mp (by omega))
      have hrec := ih ht hall.1 fun hzero => absurd hzero hhead
      have hpos : Nat.ofDigitChars 10 t 0 ≠ 0 := by
        intro hzero
        rw [hzero] at hrec
        exact hhead (hrec ▸ rfl)
      rw [Nat.toDigits_of_base_le (by decide) (by omega), show (10 * Nat.ofDigitChars 10 t 0 + (c.toNat - 48)) / 10 =
        Nat.ofDigitChars 10 t 0 by omega, show (10 * Nat.ofDigitChars 10 t 0 + (c.toNat - 48)) % 10 = c.toNat - 48 by omega,
        hrec, hchar]

lemma isDigit_asciiLower (c : Char) : (asciiLower c).isDigit = c.isDigit := by
  rcases asciiLower_or c with heq | ⟨hlow, hhigh, hval⟩
  · rw [heq]
  · have hnot : ∀ d : Char, 65 ≤ d.toNat → ¬ d.isDigit = true := by
      intro d hd h
      have := toNat_of_isDigit h
      omega
    rw [Bool.eq_iff_iff]
    exact iff_of_false (hnot _ (by omega)) (hnot c hlow)

lemma map_asciiLower_of_isDigit {s : List Char} (h : s.all Char.isDigit = true) : s.map asciiLower = s := by
  refine (List.map_congr_left fun c hc => ?_).trans (List.map_id s)
  have := toNat_of_isDigit (List.all_eq_true.mp h c hc)
  exact (asciiLower_or c).resolve_right fun ⟨hlow, _⟩ => by omega

lemma rdropWhile_map {γ β : Type} (f : γ → β) (q : β → Bool) (s : List γ) :
    (s.map f).rdropWhile q = (s.rdropWhile fun x => q (f x)).map f := by
  unfold List.rdropWhile
  rw [← List.map_reverse, List.dropWhile_map, List.map_reverse]
  rfl

lemma rtakeWhile_map {γ β : Type} (f : γ → β) (q : β → Bool) (s : List γ) :
    (s.map f).rtakeWhile q = (s.rtakeWhile fun x => q (f x)).map f := by
  unfold List.rtakeWhile
  rw [← List.map_reverse, List.takeWhile_map, List.map_reverse]
  rfl

lemma trim_map_asciiLower (s : List Char) : trim (s.map asciiLower) = (trim s).map asciiLower := by
  unfold trim
  rw [List.dropWhile_map, rdropWhile_map]
  have hspace : isWhiteSpace ∘ asciiLower = isWhiteSpace := funext isWhiteSpace_asciiLower
  simp only [isWhiteSpace_asciiLower, hspace]

/-- `toLowerCase` of ASCII text. -/
def LowerCase.ascii : LowerCase where
  lower := List.map asciiLower
  caseless h := h
  dot s := by rw [List.map_append, List.map_singleton, (asciiLower_eq_iff (by decide) '.').mpr rfl]
  dot_suffix {s} h := by
    obtain ⟨u, hu⟩ := h
    obtain ⟨u', d, rfl, -, hd⟩ := List.map_eq_append_iff.mp hu.symm
    obtain ⟨c, tl, rfl, hc, htl⟩ := List.map_eq_cons_iff.mp hd
    obtain rfl := List.map_eq_nil_iff.mp htl
    obtain rfl := (asciiLower_eq_iff (by decide) c).mp hc
    exact ⟨u', rfl⟩
  empty_part s := by
    rw [splitOn_map (asciiLower_eq_iff (by decide)), List.mem_map]
    exact ⟨fun ⟨part, hmem, he⟩ => List.map_eq_nil_iff.mp he ▸ hmem, fun h => ⟨[], h, rfl⟩⟩

end ShadeTree.Lib.Text
