import Mathlib.Data.List.Basic
import Mathlib.Tactic.Common

/-!
# JSON values and their text

A JSON value over a type of numbers, and the text a serializer without spaces writes for it.  If the texts of the
numbers are told apart and made of the characters of numbers, the text of a value has one reading: no other value
has it, and no value goes on where another one ends.
-/

namespace ShadeTree.Lib

inductive Json (N : Type) where
  | null
  | bool (b : Bool)
  | num (n : N)
  | str (s : String)
  | arr (items : List (Json N))
  | obj (fields : List (String × Json N))

namespace Json

variable {N : Type}

/-- The value under a key; of several the last one counts. -/
def get (key : String) : Json N → Option (Json N)
  | .obj fields => (fields.reverse.find? fun field => field.1 = key).map Prod.snd
  | _ => none

/-- The object with a value under a key. -/
def set (v : Json N) (key : String) (value : Json N) : Json N :=
  match v with
  | .obj fields => .obj (fields.filter (fun field => field.1 ≠ key) ++ [(key, value)])
  | v => v

lemma get_cons (key : String) (field : String × Json N) (fields : List (String × Json N)) :
    (obj (field :: fields)).get key = ((obj fields).get key).or (if field.1 = key then some field.2 else none) := by
  simp only [get, List.reverse_cons, List.find?_append, List.find?_singleton]
  cases fields.reverse.find? fun field => field.1 = key with
  | some found => rfl
  | none =>
    simp only [Option.none_or, Option.map_none, decide_eq_true_eq]
    split <;> rfl

lemma get_append (key : String) (fields fields' : List (String × Json N)) :
    (obj (fields ++ fields')).get key = ((obj fields').get key).or ((obj fields).get key) := by
  simp only [get, List.reverse_append, List.find?_append]
  cases fields'.reverse.find? fun field => field.1 = key <;> rfl

lemma get_nil (key : String) : (obj ([] : List (String × Json N))).get key = none := rfl

lemma get_set_self (key : String) (value : Json N) (fields : List (String × Json N)) :
    ((obj fields).set key value).get key = some value := by
  unfold set
  rw [get_append, get_cons, get_nil, if_pos rfl]
  rfl

lemma get_filter {p : String → Bool} {key : String} (hkey : p key = true) (fields : List (String × Json N)) :
    (obj (fields.filter fun field => p field.1)).get key = (obj fields).get key := by
  induction fields with
  | nil => rfl
  | cons field fields ih =>
    by_cases hp : p field.1 = true
    · rw [List.filter_cons, if_pos hp, get_cons, get_cons, ih]
    · have hne : field.1 ≠ key := fun heq => hp (heq ▸ hkey)
      rw [List.filter_cons, if_neg hp, get_cons, ih, if_neg hne, Option.or_none]

lemma get_set_of_ne {key key' : String} (h : key' ≠ key) (value : Json N) (fields : List (String × Json N)) :
    ((obj fields).set key value).get key' = (obj fields).get key' := by
  have hp : (fun name : String => decide (name ≠ key)) key' = true := decide_eq_true h
  unfold set
  rw [get_append, get_cons, get_nil, if_neg h.symm, get_filter (p := fun name => decide (name ≠ key)) hp]
  rfl

section Bind

variable {M : Type} (f : N → Json M)

mutual

/-- The value with a value in the place of each number. -/
def bind : Json N → Json M
  | .null => .null
  | .bool b => .bool b
  | .num n => f n
  | .str s => .str s
  | .arr items => .arr (bindItems items)
  | .obj fields => .obj (bindFields fields)

def bindItems : List (Json N) → List (Json M)
  | [] => []
  | item :: items => bind item :: bindItems items

def bindFields : List (String × Json N) → List (String × Json M)
  | [] => []
  | (key, value) :: fields => (key, bind value) :: bindFields fields

end

lemma bindItems_eq_map (items : List (Json N)) : bindItems f items = items.map (bind f) := by
  induction items with
  | nil => rfl
  | cons item items ih => rw [bindItems, ih, List.map_cons]

lemma bindFields_eq_map (fields : List (String × Json N)) :
    bindFields f fields = fields.map fun field => (field.1, bind f field.2) := by
  induction fields with
  | nil => rfl
  | cons field fields ih => rw [bindFields, ih, List.map_cons]

/-- What stands in the place of a number has no fields. -/
lemma get_bind (hf : ∀ n key, (f n).get key = none) (key : String) (v : Json N) :
    (v.bind f).get key = (v.get key).map (bind f) := by
  cases v with
  | obj fields =>
    simp only [bind, get, bindFields_eq_map, ← List.map_reverse, List.find?_map, Option.map_map]
    rfl
  | num n => exact hf n key
  | _ => rfl

mutual

theorem bind_num : ∀ v : Json N, v.bind .num = v
  | .null | .bool _ | .num _ | .str _ => rfl
  | .arr items => congrArg arr (bindItems_num items)
  | .obj fields => congrArg obj (bindFields_num fields)

theorem bindItems_num : ∀ items : List (Json N), bindItems .num items = items
  | [] => rfl
  | item :: items => congrArg₂ List.cons (bind_num item) (bindItems_num items)

theorem bindFields_num : ∀ fields : List (String × Json N), bindFields .num fields = fields
  | [] => rfl
  | (key, value) :: fields => congrArg₂ List.cons (congrArg (Prod.mk key) (bind_num value)) (bindFields_num fields)

end

variable {L : Type} (g : M → Json L)

mutual

theorem bind_bind : ∀ v : Json N, (v.bind f).bind g = v.bind fun n => (f n).bind g
  | .null | .bool _ | .num _ | .str _ => rfl
  | .arr items => congrArg arr (bindItems_bind items)
  | .obj fields => congrArg obj (bindFields_bind fields)

theorem bindItems_bind : ∀ items : List (Json N),
    bindItems g (bindItems f items) = bindItems (fun n => (f n).bind g) items
  | [] => rfl
  | item :: items => congrArg₂ List.cons (bind_bind item) (bindItems_bind items)

theorem bindFields_bind : ∀ fields : List (String × Json N),
    bindFields g (bindFields f fields) = bindFields (fun n => (f n).bind g) fields
  | [] => rfl
  | (key, value) :: fields => congrArg₂ List.cons (congrArg (Prod.mk key) (bind_bind value)) (bindFields_bind fields)

end

end Bind

/-! ### Text -/

def hexDigit (d : ℕ) : Char := if d < 10 then Char.ofNat (48 + d) else Char.ofNat (87 + d)

def escape (c : Char) : List Char :=
  if c = '"' then ['\\', '"']
  else if c = '\\' then ['\\', '\\']
  else if c.toNat = 8 then ['\\', 'b']
  else if c.toNat = 9 then ['\\', 't']
  else if c.toNat = 10 then ['\\', 'n']
  else if c.toNat = 12 then ['\\', 'f']
  else if c.toNat = 13 then ['\\', 'r']
  else if c.toNat < 32 then ['\\', 'u', '0', '0', hexDigit (c.toNat / 16), hexDigit (c.toNat % 16)]
  else [c]

/-- A string in quotes. -/
def quote (s : String) : List Char := '"' :: (s.toList.flatMap escape ++ ['"'])

section Write

variable (num : N → List Char)

mutual

def write : Json N → List Char
  | .null => ['n', 'u', 'l', 'l']
  | .bool true => ['t', 'r', 'u', 'e']
  | .bool false => ['f', 'a', 'l', 's', 'e']
  | .num n => num n
  | .str s => quote s
  | .arr items => '[' :: ((writeItems items).drop 1 ++ [']'])
  | .obj fields => '\x7b' :: ((writeFields fields).drop 1 ++ ['\x7d'])

/-- The items, each after a comma. -/
def writeItems : List (Json N) → List Char
  | [] => []
  | item :: items => ',' :: (write item ++ writeItems items)

/-- The fields, each after a comma. -/
def writeFields : List (String × Json N) → List Char
  | [] => []
  | (key, value) :: fields => ',' :: (quote key ++ ':' :: (write value ++ writeFields fields))

end

end Write

/-! ### One reading -/

/-- The characters that are written with a backslash. -/
def specials : List Char := '"' :: '\\' :: (List.range 32).map Char.ofNat

lemma escape_of_notMem {c : Char} (h : c ∉ specials) : escape c = [c] ∧ c ≠ '\\' ∧ c ≠ '"' := by
  simp only [specials, List.mem_cons, List.mem_map, List.mem_range, not_or, not_exists, not_and] at h
  obtain ⟨hq, hb, hlow⟩ := h
  have hge : 32 ≤ c.toNat := by
    by_contra hlt
    exact hlow c.toNat (by omega) (Char.ofNat_toNat c)
  refine ⟨?_, hb, hq⟩
  unfold escape
  rw [if_neg hq, if_neg hb, if_neg (by omega), if_neg (by omega), if_neg (by omega), if_neg (by omega),
    if_neg (by omega), if_neg (by omega)]

lemma escape_specials : ∀ c ∈ specials, (escape c).head? = some '\\' ∧
    ∀ d ∈ specials, escape c <+: escape d → c = d := by
  have hall : (specials.all fun c => decide ((escape c).head? = some '\\' ∧
      (specials.all fun d => decide (escape c <+: escape d → c = d)) = true)) = true := by decide +kernel
  intro c hc
  obtain ⟨hhead, hpairs⟩ := of_decide_eq_true (List.all_eq_true.mp hall c hc)
  exact ⟨hhead, fun d hd => of_decide_eq_true (List.all_eq_true.mp hpairs d hd)⟩

/-- No escape goes on where another one ends. -/
lemma escape_append {c d : Char} {s t : List Char} (h : escape c ++ s = escape d ++ t) : c = d ∧ s = t := by
  have hcd : c = d := by
    by_cases hc : c ∈ specials <;> by_cases hd : d ∈ specials
    · rcases List.prefix_or_prefix_of_prefix (List.prefix_append (escape c) s)
        (h ▸ List.prefix_append (escape d) t) with hp | hp
      · exact (escape_specials c hc).2 d hd hp
      · exact ((escape_specials d hd).2 c hc hp).symm
    · obtain ⟨hpd, hne, -⟩ := escape_of_notMem hd
      have hhead := congrArg List.head? h
      rw [hpd, List.head?_append, (escape_specials c hc).1] at hhead
      exact absurd (Option.some.inj hhead).symm hne
    · obtain ⟨hpc, hne, -⟩ := escape_of_notMem hc
      have hhead := congrArg List.head? h
      rw [hpc, List.head?_append, List.head?_append, (escape_specials d hd).1] at hhead
      exact absurd (Option.some.inj hhead) hne
    · rw [(escape_of_notMem hc).1, (escape_of_notMem hd).1] at h
      exact (List.cons.inj h).1
  subst hcd
  exact ⟨rfl, List.append_cancel_left h⟩

lemma escape_head {c : Char} : (escape c).head? ≠ some '"' := by
  by_cases hc : c ∈ specials
  · rw [(escape_specials c hc).1]
    decide
  · obtain ⟨hpc, -, hne⟩ := escape_of_notMem hc
    rw [hpc]
    simpa using hne

lemma escapes_append {l l' s t : List Char} (h : l.flatMap escape ++ '"' :: s = l'.flatMap escape ++ '"' :: t) :
    l = l' ∧ s = t := by
  have hhead : ∀ (c : Char) (u v : List Char), '"' :: u ≠ escape c ++ v := by
    intro c u v heq
    have h1 := congrArg List.head? heq
    rw [List.head?_append] at h1
    cases he : escape c with
    | nil =>
      have : (escape c).length ≠ 0 := by unfold escape; split_ifs <;> simp
      exact this (by rw [he]; rfl)
    | cons a as =>
      rw [he] at h1
      refine escape_head (c := c) ?_
      rw [he]
      exact h1.symm
  induction l generalizing l' with
  | nil =>
    cases l' with
    | nil => exact ⟨rfl, (List.cons.inj h).2⟩
    | cons d l' =>
      rw [List.flatMap_cons, List.append_assoc] at h
      exact absurd h (hhead d _ _)
  | cons c l ih =>
    cases l' with
    | nil =>
      rw [List.flatMap_cons, List.append_assoc] at h
      exact absurd h.symm (hhead c _ _)
    | cons d l' =>
      rw [List.flatMap_cons, List.flatMap_cons, List.append_assoc, List.append_assoc] at h
      obtain ⟨rfl, htail⟩ := escape_append h
      obtain ⟨rfl, rfl⟩ := ih htail
      exact ⟨rfl, rfl⟩

lemma quote_append {s s' : String} {x y : List Char} (h : quote s ++ x = quote s' ++ y) : s = s' ∧ x = y := by
  simp only [quote, List.cons_append, List.append_assoc, List.nil_append, List.cons.injEq, true_and] at h
  obtain ⟨hl, hxy⟩ := escapes_append h
  exact ⟨String.toList_inj.mp hl, hxy⟩

/-- A character that texts of numbers are made of. -/
def isNumeral (c : Char) : Bool := c.isDigit || c == '-' || c == '+' || c == '.' || c == 'e'

/-- The texts of numbers are told apart, and by their characters from what may follow. -/
structure NumberText (num : N → List Char) : Prop where
  ne_nil : ∀ n, num n ≠ []
  numeral : ∀ n, ∀ c ∈ num n, isNumeral c = true
  inj : ∀ n m, num n = num m → n = m

/-- The text goes on with no character of a number. -/
def Ends (s : List Char) : Prop := ∀ c ∈ s.head?, isNumeral c = false

section Inj

variable {num : N → List Char}

lemma NumberText.append (hnum : NumberText num) {n m : N} {s t : List Char} (hs : Ends s) (ht : Ends t)
    (h : num n ++ s = num m ++ t) : n = m ∧ s = t := by
  have htake : ∀ (n : N) (s : List Char), Ends s → (num n ++ s).takeWhile isNumeral = num n := by
    intro n s hs
    rw [List.takeWhile_append_of_pos (hnum.numeral n)]
    cases s with
    | nil => simp
    | cons c s => simp [hs c rfl]
  have hnm : num n = num m := by rw [← htake n s hs, ← htake m t ht, h]
  obtain rfl := hnum.inj n m hnm
  exact ⟨rfl, List.append_cancel_left h⟩

/-- What kind of value a value is. -/
def kind : Json N → ℕ
  | .null => 0
  | .bool false => 1
  | .bool true => 2
  | .num _ => 3
  | .str _ => 4
  | .arr _ => 5
  | .obj _ => 6

/-- What kind of value starts with a character; 7 for none. -/
def kindOf (c : Char) : ℕ :=
  if isNumeral c then 3
  else if c = 'n' then 0
  else if c = 'f' then 1
  else if c = 't' then 2
  else if c = '"' then 4
  else if c = '[' then 5
  else if c = '\x7b' then 6
  else 7

lemma write_head (hnum : NumberText num) (a : Json N) (s : List Char) :
    ∃ c, (write num a ++ s).head? = some c ∧ kindOf c = a.kind := by
  cases a with
  | null => exact ⟨'n', rfl, rfl⟩
  | bool b =>
    cases b
    · exact ⟨'f', rfl, rfl⟩
    · exact ⟨'t', rfl, rfl⟩
  | num n =>
    cases hn : num n with
    | nil => exact absurd hn (hnum.ne_nil n)
    | cons c cs =>
      have hc := hnum.numeral n c (by rw [hn]; exact List.mem_cons_self)
      exact ⟨c, by simp [write, hn], by rw [kindOf, if_pos hc]; rfl⟩
  | str str => exact ⟨'"', rfl, rfl⟩
  | arr items => exact ⟨'[', rfl, rfl⟩
  | obj fields => exact ⟨'\x7b', rfl, rfl⟩

lemma kind_eq (hnum : NumberText num) {a b : Json N} {s t : List Char} (h : write num a ++ s = write num b ++ t) :
    a.kind = b.kind := by
  obtain ⟨c, hc, hk⟩ := write_head hnum a s
  obtain ⟨d, hd, hk'⟩ := write_head hnum b t
  rw [h, hd] at hc
  obtain rfl := Option.some.inj hc
  exact hk.symm.trans hk'

/-- A value does not start with the bracket that ends an array. -/
lemma write_ne_cons (hnum : NumberText num) (a : Json N) (s t : List Char) {c : Char} (hc : kindOf c = 7) :
    write num a ++ s ≠ c :: t := by
  intro h
  obtain ⟨d, hd, hk⟩ := write_head hnum a s
  rw [h] at hd
  obtain rfl : c = d := Option.some.inj hd
  rw [hc] at hk
  rcases a with _ | b | _ | _ | _ | _ <;> try cases hk
  cases b <;> cases hk

lemma ends_cons {c : Char} {s : List Char} (hc : isNumeral c = false) : Ends (c :: s) := by
  intro d hd
  obtain rfl : c = d := Option.some.inj hd
  exact hc

lemma ends_items (items : List (Json N)) {s : List Char} (hs : Ends s) : Ends (writeItems num items ++ s) := by
  cases items with
  | nil => exact hs
  | cons item items => exact ends_cons (by decide)

lemma ends_fields (fields : List (String × Json N)) {s : List Char} (hs : Ends s) :
    Ends (writeFields num fields ++ s) := by
  cases fields with
  | nil => exact hs
  | cons field fields => exact ends_cons (by decide)

mutual

/-- **One reading.** A text starts with the text of one value at most. -/
theorem write_append (hnum : NumberText num) : ∀ (a b : Json N) {s t : List Char}, Ends s → Ends t →
    write num a ++ s = write num b ++ t → a = b ∧ s = t
  | .null, b, s, t, hs, ht, h => by
    have hk := kind_eq hnum h
    cases b with
    | null => exact ⟨rfl, List.append_cancel_left h⟩
    | bool b => cases b <;> cases hk
    | _ => cases hk
  | .bool a, b, s, t, hs, ht, h => by
    have hk := kind_eq hnum h
    cases b with
    | bool b =>
      obtain rfl : a = b := by
        cases a <;> cases b <;> first | rfl | cases hk
      exact ⟨rfl, List.append_cancel_left h⟩
    | _ => cases a <;> cases hk
  | .num n, b, s, t, hs, ht, h => by
    have hk := kind_eq hnum h
    cases b with
    | num m =>
      obtain ⟨rfl, rfl⟩ := hnum.append hs ht h
      exact ⟨rfl, rfl⟩
    | bool b => cases b <;> cases hk
    | _ => cases hk
  | .str x, b, s, t, hs, ht, h => by
    have hk := kind_eq hnum h
    cases b with
    | str y =>
      obtain ⟨rfl, rfl⟩ := quote_append h
      exact ⟨rfl, rfl⟩
    | bool b => cases b <;> cases hk
    | _ => cases hk
  | .arr items, b, s, t, hs, ht, h => by
    have hk := kind_eq hnum h
    cases b with
    | arr items' =>
      simp only [write, List.cons_append, List.append_assoc, List.nil_append, List.cons.injEq, true_and] at h
      cases items with
      | nil =>
        cases items' with
        | nil => exact ⟨rfl, (List.cons.inj h).2⟩
        | cons b items' =>
          simp only [writeItems, List.drop_nil, List.nil_append, List.drop_succ_cons, List.drop_zero,
            List.append_assoc] at h
          exact absurd h.symm (write_ne_cons hnum b _ _ (by decide))
      | cons a items =>
        cases items' with
        | nil =>
          simp only [writeItems, List.drop_nil, List.nil_append, List.drop_succ_cons, List.drop_zero,
            List.append_assoc] at h
          exact absurd h (write_ne_cons hnum a _ _ (by decide))
        | cons b items' =>
          simp only [writeItems, List.drop_succ_cons, List.drop_zero, List.append_assoc] at h
          obtain ⟨rfl, htail⟩ := write_append hnum a b (ends_items items (ends_cons (by decide)))
            (ends_items items' (ends_cons (by decide))) h
          obtain ⟨rfl, rfl⟩ := writeItems_append hnum items items' htail
          exact ⟨rfl, rfl⟩
    | bool b => cases b <;> cases hk
    | _ => cases hk
  | .obj fields, b, s, t, hs, ht, h => by
    have hk := kind_eq hnum h
    cases b with
    | obj fields' =>
      simp only [write, List.cons_append, List.append_assoc, List.nil_append, List.cons.injEq, true_and] at h
      obtain ⟨rfl, rfl⟩ := writeFields_append hnum fields fields' (s := s) (t := t) (by
        cases fields with
        | nil =>
          cases fields' with
          | nil => exact h
          | cons f fields' => cases h
        | cons f fields =>
          cases fields' with
          | nil => cases h
          | cons f' fields' =>
            simpa only [writeFields, List.cons_append, List.drop_succ_cons, List.drop_zero, List.cons.injEq,
              true_and] using h)
      exact ⟨rfl, rfl⟩
    | bool b => cases b <;> cases hk
    | _ => cases hk

theorem writeItems_append (hnum : NumberText num) : ∀ (l l' : List (Json N)) {s t : List Char},
    writeItems num l ++ ']' :: s = writeItems num l' ++ ']' :: t → l = l' ∧ s = t
  | [], [], s, t, h => ⟨rfl, (List.cons.inj h).2⟩
  | [], b :: l', s, t, h => by cases h
  | a :: l, [], s, t, h => by cases h
  | a :: l, b :: l', s, t, h => by
    simp only [writeItems, List.cons_append, List.append_assoc, List.cons.injEq, true_and] at h
    obtain ⟨rfl, htail⟩ := write_append hnum a b (ends_items l (ends_cons (by decide)))
      (ends_items l' (ends_cons (by decide))) h
    obtain ⟨rfl, rfl⟩ := writeItems_append hnum l l' htail
    exact ⟨rfl, rfl⟩

theorem writeFields_append (hnum : NumberText num) : ∀ (l l' : List (String × Json N)) {s t : List Char},
    writeFields num l ++ '\x7d' :: s = writeFields num l' ++ '\x7d' :: t → l = l' ∧ s = t
  | [], [], s, t, h => ⟨rfl, (List.cons.inj h).2⟩
  | [], (k, b) :: l', s, t, h => by cases h
  | (k, a) :: l, [], s, t, h => by cases h
  | (k, a) :: l, (k', b) :: l', s, t, h => by
    simp only [writeFields, List.cons_append, List.append_assoc, List.cons.injEq, true_and] at h
    obtain ⟨rfl, hvalue⟩ := quote_append h
    obtain ⟨rfl, htail⟩ := write_append hnum a b (ends_fields l (ends_cons (by decide)))
      (ends_fields l' (ends_cons (by decide))) (List.cons.inj hvalue).2
    obtain ⟨rfl, rfl⟩ := writeFields_append hnum l l' htail
    exact ⟨rfl, rfl⟩

end

theorem write_inj (hnum : NumberText num) {a b : Json N} (h : write num a = write num b) : a = b := by
  have hnil : Ends [] := by simp [Ends]
  exact (write_append hnum a b hnil hnil (by simpa using h)).1

end Inj

end Json

end ShadeTree.Lib
