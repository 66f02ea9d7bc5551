import Mathlib.Data.List.Forall2
import Mathlib.Tactic.Ring
import ShadeTree.Lib.Text

/-!
# Textual forms of IP addresses

The dotted quad of a 32-bit value, and the forms of a 128-bit value: eight groups of hexadecimal digits, any run of
zero groups left out at one `::`, the last two groups written as a dotted quad, a zone behind `%`.  Each form is a
relation between a text and a value.
-/

namespace ShadeTree.Lib.Inet

open Text

/-! ### Four octets -/

/-- The dotted quad of a value. -/
def IPv4Text (s : List Char) (v : ℕ) : Prop :=
  ∃ a b c d : ℕ, a < 256 ∧ b < 256 ∧ c < 256 ∧ d < 256 ∧ v = ((a * 256 + b) * 256 + c) * 256 + d ∧
    s = ['.'].intercalate [Nat.toDigits 10 a, Nat.toDigits 10 b, Nat.toDigits 10 c, Nat.toDigits 10 d]

lemma IPv4Text.lt {s : List Char} {v : ℕ} (h : IPv4Text s v) : v < 2 ^ 32 := by
  obtain ⟨a, b, c, d, ha, hb, hc, hd, rfl, -⟩ := h
  omega

lemma exists_IPv4Text {v : ℕ} (h : v < 2 ^ 32) : ∃ s, IPv4Text s v :=
  ⟨_, v / 2 ^ 24, v / 2 ^ 16 % 256, v / 2 ^ 8 % 256, v % 256, by omega, by omega, by omega, by omega, by omega, rfl⟩

lemma splitOn_quad (a b c d : ℕ) :
    (['.'].intercalate [Nat.toDigits 10 a, Nat.toDigits 10 b, Nat.toDigits 10 c, Nat.toDigits 10 d]).splitOn '.' =
      [Nat.toDigits 10 a, Nat.toDigits 10 b, Nat.toDigits 10 c, Nat.toDigits 10 d] := by
  refine List.splitOn_intercalate '.' ?_ (List.cons_ne_nil _ _)
  have hdot : ∀ n, '.' ∉ Nat.toDigits 10 n := fun n hmem =>
    absurd (Nat.isDigit_of_mem_toDigits (by decide) (by decide) hmem) (by decide)
  simp [hdot]

lemma IPv4Text.chars {s : List Char} {v : ℕ} (h : IPv4Text s v) : ∀ ch ∈ s, ch = '.' ∨ ch.isDigit = true := by
  obtain ⟨a, b, c, d, -, -, -, -, -, rfl⟩ := h
  have hdigit : ∀ {n : ℕ} {ch : Char}, ch ∈ Nat.toDigits 10 n → ch.isDigit = true :=
    fun h => Nat.isDigit_of_mem_toDigits (by decide) (by decide) h
  intro ch hch
  simp only [List.intercalate_cons_cons, List.intercalate_singleton, List.mem_append, List.mem_singleton,
    or_assoc] at hch
  rcases hch with hch | hch | hch | hch | hch | hch | hch
  all_goals first | exact .inl hch | exact .inr (hdigit hch)

/-! ### Groups of hexadecimal digits -/

/-- The value of a hexadecimal digit, in either case. -/
def hexValue (c : Char) : Option ℕ :=
  if c.isDigit then some (c.toNat - 48)
  else if 'a' ≤ c ∧ c ≤ 'f' then some (c.toNat - 87)
  else if 'A' ≤ c ∧ c ≤ 'F' then some (c.toNat - 55)
  else none

/-- A group: one digit to four, leading zeros among them. -/
def Group (s : List Char) (v : ℕ) : Prop :=
  1 ≤ s.length ∧ s.length ≤ 4 ∧ ∃ ds : List ℕ, s.map hexValue = ds.map some ∧ v = ds.foldl (fun n d => 16 * n + d) 0

/-- Groups with colons between them; there may be none. -/
def Groups (s : List Char) (vs : List ℕ) : Prop :=
  ∃ parts, List.Forall₂ Group parts vs ∧ s = [':'].intercalate parts

/-- Groups of which the last two may be written as a dotted quad. -/
def GroupsQuad (s : List Char) (vs : List ℕ) : Prop :=
  Groups s vs ∨ ∃ parts vs' quad v, List.Forall₂ Group parts vs' ∧ IPv4Text quad v ∧
    s = [':'].intercalate (parts ++ [quad]) ∧ vs = vs' ++ [v / 65536, v % 65536]

/-- An address without a zone and its eight groups. -/
def IPv6Plain (s : List Char) (words : List ℕ) : Prop :=
  (GroupsQuad s words ∧ words.length = 8) ∨
  ∃ l r ls rs, Groups l ls ∧ GroupsQuad r rs ∧ ls.length + rs.length ≤ 7 ∧ s = l ++ ':' :: ':' :: r ∧
    words = ls ++ List.replicate (8 - ls.length - rs.length) 0 ++ rs

def zoneChar (c : Char) : Bool := c.isAlphanum || c == '-' || c == '.' || c == ':'

/-- The number of eight groups. -/
def numeral (words : List ℕ) : ℕ := words.foldl (fun v w => v * 65536 + w) 0

/-- A textual form of a 128-bit value. -/
def IPv6Text (s : List Char) (v : ℕ) : Prop :=
  ∃ a zone words, s = a ++ zone ∧ IPv6Plain a words ∧ v = numeral words ∧
    (zone = [] ∨ ∃ z, zone = '%' :: z ∧ z ≠ [] ∧ z.all zoneChar = true)

lemma foldl_hex_lt {ds : List ℕ} (h : ∀ d ∈ ds, d < 16) (n : ℕ) :
    ds.foldl (fun n d => 16 * n + d) n < (n + 1) * 16 ^ ds.length := by
  induction ds generalizing n with
  | nil => simp
  | cons d ds ih =>
    have hd := h d List.mem_cons_self
    calc (d :: ds).foldl (fun n d => 16 * n + d) n < (16 * n + d + 1) * 16 ^ ds.length :=
          ih (fun d' hd' => h d' (List.mem_cons_of_mem _ hd')) _
      _ ≤ (16 * (n + 1)) * 16 ^ ds.length := Nat.mul_le_mul_right _ (by omega)
      _ = (n + 1) * 16 ^ (ds.length + 1) := by rw [pow_succ]; ring

lemma hexValue_lt {c : Char} {d : ℕ} (h : hexValue c = some d) : d < 16 := by
  unfold hexValue at h
  split at h
  · next hd =>
    have := toNat_of_isDigit hd
    obtain rfl := Option.some.inj h
    omega
  split at h
  · next hc =>
    have h102 : c.toNat ≤ 102 := hc.2
    obtain rfl := Option.some.inj h
    omega
  split at h
  · next hc =>
    have h70 : c.toNat ≤ 70 := hc.2
    obtain rfl := Option.some.inj h
    omega
  · cases h

lemma Group.lt {s : List Char} {v : ℕ} (h : Group s v) : v < 65536 := by
  obtain ⟨-, hlen, ds, hds, rfl⟩ := h
  have hlen' : s.length = ds.length := by simpa using congrArg List.length hds
  have hd : ∀ d ∈ ds, d < 16 := by
    intro d hmem
    obtain ⟨c, -, hc⟩ := List.mem_map.mp (hds ▸ List.mem_map_of_mem hmem : some d ∈ s.map hexValue)
    exact hexValue_lt hc
  calc ds.foldl (fun n d => 16 * n + d) 0 < (0 + 1) * 16 ^ ds.length := foldl_hex_lt hd 0
    _ ≤ 1 * 16 ^ 4 := Nat.mul_le_mul_left _ (Nat.pow_le_pow_right (by decide) (by omega))
    _ = 65536 := by norm_num

lemma hexValue_char {c : Char} (h : (hexValue c).isSome) :
    (48 ≤ c.toNat ∧ c.toNat ≤ 57) ∨ (97 ≤ c.toNat ∧ c.toNat ≤ 102) ∨ (65 ≤ c.toNat ∧ c.toNat ≤ 70) := by
  unfold hexValue at h
  split at h
  · next hd => exact .inl (toNat_of_isDigit hd)
  split at h
  · next hc => exact .inr (.inl ⟨hc.1, hc.2⟩)
  split at h
  · next hc => exact .inr (.inr ⟨hc.1, hc.2⟩)
  · cases h

lemma Group.chars {s : List Char} {v : ℕ} (h : Group s v) : ∀ c ∈ s, (hexValue c).isSome := by
  obtain ⟨-, -, ds, hds, -⟩ := h
  intro c hc
  obtain ⟨d, -, hd⟩ := List.mem_map.mp (hds ▸ List.mem_map_of_mem hc : hexValue c ∈ ds.map some)
  exact hd ▸ rfl

lemma hexValue_asciiLower (c : Char) : hexValue (asciiLower c) = hexValue c := by
  rcases asciiLower_or c with heq | ⟨hlow, hhigh, hval⟩
  · rw [heq]
  · have hnd : ∀ d : Char, 65 ≤ d.toNat → d.isDigit = false := by
      intro d hd
      rw [Bool.eq_false_iff]
      intro h
      have := toNat_of_isDigit h
      omega
    have hle : ∀ {d e : Char}, d ≤ e ↔ d.toNat ≤ e.toNat := Iff.rfl
    have ha : 'a'.toNat = 97 := rfl
    have hf : 'f'.toNat = 102 := rfl
    have hA : 'A'.toNat = 65 := rfl
    have hF : 'F'.toNat = 70 := rfl
    have h97 : ¬ 97 ≤ c.toNat := by omega
    have h97' : 97 ≤ c.toNat + 32 := by omega
    have h70 : ¬ c.toNat + 32 ≤ 70 := by omega
    unfold hexValue
    simp only [hnd c hlow, hnd _ (show 65 ≤ (asciiLower c).toNat by omega), hle, hval, ha, hf, hA, hF, h97, h97', h70,
      hlow, Bool.false_eq_true, if_false, false_and, and_false, true_and]
    by_cases hc : c.toNat ≤ 70
    · rw [if_pos (by omega), if_pos hc]
      congr 1
    · rw [if_neg (by omega), if_neg hc]

lemma group_toDigits {n : ℕ} (h : n < 65536) :
    Group (Nat.toDigits 16 n) n ∧ (Nat.toDigits 16 n).map asciiLower = Nat.toDigits 16 n := by
  have hdigit : ∀ d < 16, hexValue (Nat.digitChar d) = some d ∧ asciiLower (Nat.digitChar d) = Nat.digitChar d := by
    decide
  have key : ∀ n, (∃ ds : List ℕ, (Nat.toDigits 16 n).map hexValue = ds.map some ∧
      ds.foldl (fun n d => 16 * n + d) 0 = n) ∧ (Nat.toDigits 16 n).map asciiLower = Nat.toDigits 16 n := by
    intro n
    induction n using Nat.strong_induction_on with
    | _ n ih =>
      by_cases hn : n < 16
      · rw [Nat.toDigits_of_lt_base hn]
        exact ⟨⟨[n], by simp [(hdigit n hn).1], by simp⟩, by simp [(hdigit n hn).2]⟩
      · have hmod := hdigit (n % 16) (Nat.mod_lt _ (by decide))
        obtain ⟨⟨ds, hds, hval⟩, hlower⟩ := ih (n / 16) (by omega)
        rw [Nat.toDigits_of_base_le (by decide) (by omega)]
        refine ⟨⟨ds ++ [n % 16], by simp [hds, hmod.1], ?_⟩, by simp [hlower, hmod.2]⟩
        rw [List.foldl_append, hval, List.foldl_cons, List.foldl_nil]
        omega
  obtain ⟨⟨ds, hds, hval⟩, hlower⟩ := key n
  exact ⟨⟨Nat.length_toDigits_pos, (Nat.length_toDigits_le_iff (by decide) (by decide)).mpr (by omega), ds, hds,
    hval.symm⟩, hlower⟩

/-- Every value of 128 bits has a textual form. -/
lemma exists_IPv6Text {v : ℕ} (h : v < 2 ^ 128) : ∃ s, IPv6Text s v := by
  have hgroups : ∀ words : List ℕ, (∀ w ∈ words, w < 65536) →
      List.Forall₂ Group (words.map (Nat.toDigits 16)) words := by
    intro words hwords
    induction words with
    | nil => exact .nil
    | cons w words ih =>
      rw [List.forall_mem_cons] at hwords
      exact .cons (group_toDigits hwords.1).1 (ih hwords.2)
  refine ⟨_, _, [], [v / 2 ^ 112, v / 2 ^ 96 % 65536, v / 2 ^ 80 % 65536, v / 2 ^ 64 % 65536, v / 2 ^ 48 % 65536,
    v / 2 ^ 32 % 65536, v / 2 ^ 16 % 65536, v % 65536], (List.append_nil _).symm,
    .inl ⟨.inl ⟨_, hgroups _ ?_, rfl⟩, rfl⟩, ?_, .inl rfl⟩
  · simp only [List.forall_mem_cons]
    exact ⟨by omega, by omega, by omega, by omega, by omega, by omega, by omega, by omega, List.forall_mem_nil _⟩
  · simp only [numeral, List.foldl_cons, List.foldl_nil]
    omega

/-! ### The case of the letters -/

lemma Group.lower {s : List Char} {v : ℕ} (h : Group s v) : Group (s.map asciiLower) v := by
  obtain ⟨hpos, hlen, ds, hds, hv⟩ := h
  refine ⟨by simpa using hpos, by simpa using hlen, ds, ?_, hv⟩
  rw [List.map_map, ← hds]
  exact List.map_congr_left fun c _ => hexValue_asciiLower c

lemma forall₂_lower {parts : List (List Char)} {vs : List ℕ} (h : List.Forall₂ Group parts vs) :
    List.Forall₂ Group (parts.map (List.map asciiLower)) vs :=
  List.forall₂_map_left_iff.mpr (List.Forall₂.imp (fun _ _ => Group.lower) h)

lemma IPv4Text.lower {s : List Char} {v : ℕ} (h : IPv4Text s v) : s.map asciiLower = s := by
  refine (List.map_congr_left fun c hc => ?_).trans (List.map_id s)
  refine (asciiLower_or c).resolve_right fun ⟨hlow, _⟩ => ?_
  rcases h.chars c hc with rfl | hd
  · exact absurd hlow (by decide)
  · have := toNat_of_isDigit hd
    omega

lemma Groups.lower {s : List Char} {vs : List ℕ} (h : Groups s vs) : Groups (s.map asciiLower) vs := by
  obtain ⟨parts, hparts, rfl⟩ := h
  exact ⟨_, forall₂_lower hparts, map_intercalate asciiLower [':'] parts⟩

lemma GroupsQuad.lower {s : List Char} {vs : List ℕ} (h : GroupsQuad s vs) : GroupsQuad (s.map asciiLower) vs := by
  rcases h with h | ⟨parts, vs', quad, v, hparts, hquad, rfl, rfl⟩
  · exact .inl h.lower
  · refine .inr ⟨_, vs', quad, v, forall₂_lower hparts, hquad, ?_, rfl⟩
    rw [map_intercalate, List.map_append, List.map_singleton, List.map_singleton, hquad.lower]
    rfl

lemma IPv6Plain.lower {s : List Char} {words : List ℕ} (h : IPv6Plain s words) :
    IPv6Plain (s.map asciiLower) words := by
  rcases h with ⟨h, hlen⟩ | ⟨l, r, ls, rs, hl, hr, hlen, rfl, rfl⟩
  · exact .inl ⟨h.lower, hlen⟩
  · exact .inr ⟨_, _, ls, rs, hl.lower, hr.lower, hlen, by rw [List.map_append]; rfl, rfl⟩

/-! ### The characters of an address -/

lemma exists_group {parts : List (List Char)} {vs : List ℕ} (h : List.Forall₂ Group parts vs) {part : List Char}
    (hmem : part ∈ parts) : ∃ v, Group part v := by
  induction h with
  | nil => cases hmem
  | cons hv _ ih =>
    rcases List.mem_cons.mp hmem with rfl | hmem
    · exact ⟨_, hv⟩
    · exact ih hmem

lemma Groups.chars {s : List Char} {vs : List ℕ} (h : Groups s vs) : ∀ c ∈ s, c = ':' ∨ (hexValue c).isSome := by
  obtain ⟨parts, hparts, rfl⟩ := h
  intro c hc
  refine (mem_intercalate hc).imp List.mem_singleton.mp fun ⟨part, hpart, hmem⟩ => ?_
  obtain ⟨v, hv⟩ := exists_group hparts hpart
  exact hv.chars c hmem

lemma GroupsQuad.chars {s : List Char} {vs : List ℕ} (h : GroupsQuad s vs) :
    ∀ c ∈ s, c = ':' ∨ (hexValue c).isSome ∨ c = '.' := by
  intro c hc
  rcases h with h | ⟨parts, vs', quad, v, hparts, hquad, rfl, -⟩
  · exact (h.chars c hc).imp_right .inl
  · refine (mem_intercalate hc).imp List.mem_singleton.mp fun ⟨part, hpart, hmem⟩ => ?_
    rcases List.mem_append.mp hpart with hpart | hpart
    · obtain ⟨w, hw⟩ := exists_group hparts hpart
      exact .inl (hw.chars c hmem)
    · obtain rfl := List.mem_singleton.mp hpart
      refine (hquad.chars c hmem).symm.imp_left fun hd => ?_
      simp [hexValue, hd]

lemma IPv6Plain.chars {s : List Char} {words : List ℕ} (h : IPv6Plain s words) :
    ∀ c ∈ s, c = ':' ∨ (hexValue c).isSome ∨ c = '.' := by
  rcases h with ⟨h, -⟩ | ⟨l, r, ls, rs, hl, hr, -, rfl, -⟩
  · exact h.chars
  · intro c hc
    simp only [List.mem_append, List.mem_cons] at hc
    rcases hc with hc | hc | hc | hc
    · exact (hl.chars c hc).imp_right .inl
    · exact .inl hc
    · exact .inl hc
    · exact hr.chars c hc

/-! ### Blocks -/

/-- The value lies in the block of the addresses that begin like `base`, which has zeros behind the prefix. -/
def InBlock (bits base pfx v : ℕ) : Prop := base ≤ v ∧ v < base + 2 ^ (bits - pfx)

instance (bits base pfx v : ℕ) : Decidable (InBlock bits base pfx v) := inferInstanceAs (Decidable (_ ∧ _))

lemma shiftRight_eq_iff {bits base pfx v : ℕ} (h : 2 ^ (bits - pfx) ∣ base) :
    v >>> (bits - pfx) = base >>> (bits - pfx) ↔ InBlock bits base pfx v := by
  obtain ⟨k, rfl⟩ := h
  have hpos : 0 < 2 ^ (bits - pfx) := Nat.pow_pos (by decide)
  rw [Nat.shiftRight_eq_div_pow, Nat.shiftRight_eq_div_pow, Nat.mul_div_cancel_left k hpos, Nat.div_eq_iff hpos]
  unfold InBlock
  rw [Nat.mul_comm k]
  omega

end ShadeTree.Lib.Inet
