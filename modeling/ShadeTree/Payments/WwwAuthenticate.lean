import Mathlib.Data.List.TakeWhile
import Mathlib.Tactic.Common
import ShadeTree.Lib.Text

/-!
# The challenges of a `WWW-Authenticate` header (`formatWwwAuthenticate` and `parseWwwAuthenticate` in `payments/wire.mjs`)

A comma stands between challenges and between the parameters of a challenge, and a quoted string may hold anything.
The scanner comes to an end on every text; on the challenges the formatter writes, joined with commas, it finds the
parameters that went in.

A string is the sequence of its UTF-16 code units, so that one with a lone surrogate is a string too.
-/

namespace ShadeTree.Payments

abbrev JsString := List UInt16

/-- A string of ASCII characters. -/
def units (s : String) : JsString := s.toList.map fun c => UInt16.ofNat c.toNat

/-- An object with values that are strings. -/
abbrev Params := JsString → Option JsString

structure Challenge where
  scheme : JsString
  params : Params

/-! ### The formatter -/

def order : List JsString :=
  ["id", "realm", "method", "intent", "request", "expires", "digest", "opaque", "description"].map units

/-- A unit with a backslash before it if it is a quote or a backslash. -/
def escapeUnit (c : UInt16) : JsString := if c = 0x5c ∨ c = 0x22 then [0x5c, c] else [c]

def q (v : JsString) : JsString := 0x22 :: (v.flatMap escapeUnit ++ [0x22])

/-- One parameter, if the challenge has it. -/
def param (params : Params) (k : JsString) : Option (JsString × JsString) :=
  match params k with
  | none => none
  | some v => if v = [] then none else some (k, v)

def formatWwwAuthenticate (params : Params) : JsString :=
  units "Payment " ++ (units ", ").intercalate ((order.filterMap (param params)).map fun p => p.1 ++ 0x3d :: q p.2)

/-! ### The scanner -/

def isBlank (c : UInt16) : Bool := c = 0x20 ∨ c = 9

def isTokenUnit (c : UInt16) : Bool :=
  c ∈ units "!#$%&'*+-.^_`|~0123456789ABCDEFGHIJKLMNOPQRSTUVWXYZabcdefghijklmnopqrstuvwxyz"

def ws (s : JsString) : JsString := s.dropWhile isBlank

/-- A token and what follows it. -/
def token (s : JsString) : JsString × JsString := (s.takeWhile isTokenUnit, s.dropWhile isTokenUnit)

/-- What a quoted string holds, behind its opening quote, and what follows its closing quote, if it has one. -/
def quoted : JsString → JsString × JsString
  | [] => ([], [])
  | c :: s =>
    if c = 0x22 then ([], s)
    else if c = 0x5c then
      match s with
      | [] => ([c], [])
      | d :: s => (d :: (quoted s).1, (quoted s).2)
    else (c :: (quoted s).1, (quoted s).2)

def lowerUnit (c : UInt16) : UInt16 := if 0x41 ≤ c ∧ c ≤ 0x5a then c + 0x20 else c

/-- `toLowerCase()` of a token. -/
def toLowerCase (t : JsString) : JsString := t.map lowerUnit

/-- What is left of the text, the challenges that are complete, and the current one. -/
structure Scan where
  rest : JsString
  out : List Challenge
  cur : Option Challenge

/-- The challenges found so far: the current one counts if its scheme is `Payment`. -/
def Scan.found (p : Scan) : List Challenge :=
  p.out ++ p.cur.toList.filter fun c => toLowerCase c.scheme = units "payment"

/-- `params[k] = v`; an assignment of a string to `__proto__` does nothing. -/
def setParam (params : Params) (k v : JsString) : Params :=
  if k = units "__proto__" then params else Function.update params k (some v)

/-- One round of the loop of `parseWwwAuthenticate`. -/
def round (p : Scan) : Scan :=
  let s := ws p.rest
  if s.head? = some 0x2c then { p with rest := s.tail }
  else
    let t := (token s).1
    if t = [] then { p with rest := (token s).2.tail }
    else
      let s := ws (token s).2
      if s.head? = some 0x3d then
        -- a parameter of the current challenge
        let s := ws s.tail
        let v := if s.head? = some 0x22 then quoted s.tail else token s
        { p with rest := v.2, cur := p.cur.map fun c => { c with params := setParam c.params (toLowerCase t) v.1 } }
      else ⟨s, p.found, some ⟨t, fun _ => none⟩⟩

/-- The loop, for at most so many rounds; `none` if it has not come to its end by then. -/
def scan : ℕ → Scan → Option (List Challenge)
  | fuel, p =>
    if p.rest = [] then some p.found
    else
      match fuel with
      | 0 => none
      | fuel + 1 => scan fuel (round p)

def parseWwwAuthenticate (fuel : ℕ) (value : JsString) : Option (List Challenge) :=
  if 64 * 1024 < value.length then some [] else scan fuel ⟨value, [], none⟩

/-! ### The loop ends -/

lemma quoted_quote (s : JsString) : quoted (0x22 :: s) = ([], s) := by
  rw [quoted.eq_def]
  exact if_pos rfl

lemma quoted_backslash (d : UInt16) (s : JsString) : quoted (0x5c :: d :: s) = (d :: (quoted s).1, (quoted s).2) := by
  rw [quoted.eq_def]
  rfl

lemma quoted_plain {c : UInt16} (hq : c ≠ 0x22) (hb : c ≠ 0x5c) (s : JsString) :
    quoted (c :: s) = (c :: (quoted s).1, (quoted s).2) := by
  rw [quoted.eq_def]
  exact (if_neg hq).trans (if_neg hb)

lemma quoted_length (s : JsString) : (quoted s).2.length ≤ s.length := by
  induction s using quoted.induct with
  | case1 => exact Nat.le_refl 0
  | case2 s =>
    rw [quoted_quote]
    exact Nat.le_succ _
  | case3 => exact Nat.zero_le _
  | case4 d s _ ih =>
    rw [quoted_backslash, List.length_cons, List.length_cons]
    show (quoted s).2.length ≤ _
    omega
  | case5 c s hq hb ih =>
    rw [quoted_plain hq hb, List.length_cons]
    show (quoted s).2.length ≤ _
    omega

lemma ws_length (s : JsString) : (ws s).length ≤ s.length := (List.dropWhile_sublist _).length_le

lemma token_length (s : JsString) : (token s).1.length + (token s).2.length = s.length := by
  rw [← List.length_append, token, List.takeWhile_append_dropWhile]

/-- Every round takes something away. -/
lemma round_length {p : Scan} (h : p.rest ≠ []) : (round p).rest.length < p.rest.length := by
  have hpos := List.length_pos_iff.mpr h
  have hws := ws_length p.rest
  have htok := token_length (ws p.rest)
  unfold round
  dsimp only
  split
  · next hcomma =>
    have hne : ws p.rest ≠ [] := by
      intro hnil
      rw [hnil] at hcomma
      cases hcomma
    have := List.length_pos_iff.mpr hne
    rw [List.length_tail]
    omega
  · split
    · rw [List.length_tail]
      omega
    · next ht =>
      have htpos := List.length_pos_iff.mpr ht
      have hws' := ws_length (token (ws p.rest)).2
      split
      · have hws'' := ws_length (ws (token (ws p.rest)).2).tail
        rw [List.length_tail] at hws''
        split
        · have hq := quoted_length (ws (ws (token (ws p.rest)).2).tail).tail
          rw [List.length_tail] at hq
          show (quoted _).2.length < _
          omega
        · have htok' := token_length (ws (ws (token (ws p.rest)).2).tail)
          show (token _).2.length < _
          omega
      · show (ws _).length < _
        omega

/-- However many rounds are allowed, from the length of the text on, the loop ends with `out`. -/
def Ends (p : Scan) (out : List Challenge) : Prop := ∀ fuel, p.rest.length ≤ fuel → scan fuel p = some out

lemma ends_nil {p : Scan} (h : p.rest = []) : Ends p p.found := by
  intro fuel _
  unfold scan
  rw [if_pos h]

lemma ends_round {p : Scan} {out : List Challenge} (h : p.rest ≠ []) (hend : Ends (round p) out) : Ends p out := by
  intro fuel hfuel
  have hlt := round_length h
  obtain ⟨fuel, rfl⟩ : ∃ n, fuel = n + 1 := ⟨fuel - 1, by omega⟩
  unfold scan
  rw [if_neg h]
  exact hend fuel (by omega)

lemma exists_ends (p : Scan) : ∃ out, Ends p out := by
  induction hn : p.rest.length using Nat.strong_induction_on generalizing p with
  | _ n ih =>
    by_cases h : p.rest = []
    · exact ⟨_, ends_nil h⟩
    · obtain ⟨out, hout⟩ := ih _ (hn ▸ round_length h) (round p) rfl
      exact ⟨out, ends_round h hout⟩

/-! ### What is written is found -/

lemma quoted_escape (v s : JsString) : quoted (v.flatMap escapeUnit ++ 0x22 :: s) = (v, s) := by
  induction v with
  | nil => exact quoted_quote s
  | cons c v ih =>
    rw [List.flatMap_cons, List.append_assoc]
    by_cases hc : c = 0x5c ∨ c = 0x22
    · rw [escapeUnit, if_pos hc, List.cons_append, List.cons_append, quoted_backslash, List.nil_append, ih]
    · rw [escapeUnit, if_neg hc, List.cons_append, List.nil_append,
        quoted_plain (fun h => hc (.inr h)) (fun h => hc (.inl h)), ih]

lemma ws_append {b s : JsString} (hb : ∀ c ∈ b, isBlank c = true) (hs : ∀ c ∈ s.head?, isBlank c = false) :
    ws (b ++ s) = s := by
  rw [ws, List.dropWhile_append_of_pos hb]
  cases s with
  | nil => rfl
  | cons c s => exact List.dropWhile_cons_of_neg (by simp [hs c rfl])

lemma token_append {t s : JsString} (ht : ∀ c ∈ t, isTokenUnit c = true)
    (hs : ∀ c ∈ s.head?, isTokenUnit c = false) : token (t ++ s) = (t, s) := by
  rw [token, List.takeWhile_append_of_pos ht, List.dropWhile_append_of_pos ht]
  cases s with
  | nil => rw [List.takeWhile_nil, List.dropWhile_nil, List.append_nil]
  | cons c s =>
    have hc : ¬ isTokenUnit c = true := by simp [hs c rfl]
    rw [List.takeWhile_cons_of_neg hc, List.dropWhile_cons_of_neg hc, List.append_nil]

lemma of_isTokenUnit {c : UInt16} (h : isTokenUnit c = true) : isBlank c = false ∧ c ≠ 0x2c ∧ c ≠ 0x3d := by
  have hall : ∀ c ∈ units "!#$%&'*+-.^_`|~0123456789ABCDEFGHIJKLMNOPQRSTUVWXYZabcdefghijklmnopqrstuvwxyz",
      isBlank c = false ∧ c ≠ 0x2c ∧ c ≠ 0x3d := Lib.Text.forall_of_all (by decide)
  exact hall c (of_decide_eq_true h)

/-- A token begins with one of its units. -/
lemma head_token {t s : JsString} (ht : ∀ c ∈ t, isTokenUnit c = true) (hne : t ≠ []) :
    ∃ c, (t ++ s).head? = some c ∧ isTokenUnit c = true := by
  cases t with
  | nil => exact absurd rfl hne
  | cons c t => exact ⟨c, rfl, ht c List.mem_cons_self⟩

/-- After blanks and a token comes no comma, and the round goes on behind the token. -/
lemma round_token {b t s : JsString} (hb : ∀ c ∈ b, isBlank c = true) (ht : ∀ c ∈ t, isTokenUnit c = true)
    (hne : t ≠ []) (hs : ∀ c ∈ s.head?, isTokenUnit c = false) :
    ws (b ++ (t ++ s)) = t ++ s ∧ (ws (b ++ (t ++ s))).head? ≠ some 0x2c ∧ token (t ++ s) = (t, s) := by
  obtain ⟨c, hhead, hc⟩ := head_token (s := s) ht hne
  obtain ⟨hblank, hcomma, -⟩ := of_isTokenUnit hc
  have hws : ws (b ++ (t ++ s)) = t ++ s := ws_append hb fun d hd => by
    rw [hhead] at hd
    exact Option.some.inj hd ▸ hblank
  refine ⟨hws, fun h => hcomma ?_, token_append ht hs⟩
  rw [hws, hhead] at h
  exact Option.some.inj h

lemma round_comma {b : JsString} (hb : ∀ c ∈ b, isBlank c = true) (s : JsString) (out : List Challenge)
    (cur : Option Challenge) : round ⟨b ++ 0x2c :: s, out, cur⟩ = ⟨s, out, cur⟩ := by
  have hws : ws (b ++ 0x2c :: s) = 0x2c :: s := ws_append hb fun c hc => by
    rw [← Option.some.inj hc]
    rfl
  unfold round
  simp only [hws]
  exact if_pos rfl

lemma round_param {b k : JsString} (hb : ∀ c ∈ b, isBlank c = true) (hk : ∀ c ∈ k, isTokenUnit c = true)
    (hne : k ≠ []) (v s : JsString) (out : List Challenge) (cur : Option Challenge) :
    round ⟨b ++ (k ++ 0x3d :: (q v ++ s)), out, cur⟩ =
      ⟨s, out, cur.map fun c => { c with params := setParam c.params (toLowerCase k) v }⟩ := by
  obtain ⟨hws, hcomma, htok⟩ := round_token hb hk hne (s := 0x3d :: (q v ++ s))
    (fun c hc => by rw [← Option.some.inj hc]; rfl)
  have heq : ws (0x3d :: (q v ++ s)) = 0x3d :: (q v ++ s) := ws_append (b := []) (by simp) fun c hc => by
    rw [← Option.some.inj hc]
    rfl
  have hq : ws (q v ++ s) = 0x22 :: (v.flatMap escapeUnit ++ 0x22 :: s) := by
    have hq : q v ++ s = 0x22 :: (v.flatMap escapeUnit ++ 0x22 :: s) := by simp [q]
    rw [hq]
    exact ws_append (b := []) (by simp) fun c hc => by rw [← Option.some.inj hc]; rfl
  unfold round
  simp only [if_neg hcomma]
  simp only [hws, htok, if_neg hne, heq, List.head?_cons, List.tail_cons, hq, if_true, quoted_escape]

lemma round_scheme {b t : JsString} (hb : ∀ c ∈ b, isBlank c = true) (ht : ∀ c ∈ t, isTokenUnit c = true)
    (hne : t ≠ []) {c : UInt16} (hc : isTokenUnit c = true) (s : JsString) (out : List Challenge)
    (cur : Option Challenge) :
    round ⟨b ++ (t ++ 0x20 :: c :: s), out, cur⟩ =
      ⟨c :: s, (Scan.mk (b ++ (t ++ 0x20 :: c :: s)) out cur).found, some ⟨t, fun _ => none⟩⟩ := by
  obtain ⟨hblank, -, heq⟩ := of_isTokenUnit hc
  obtain ⟨hws, hcomma, htok⟩ := round_token hb ht hne (s := 0x20 :: c :: s)
    (fun c hc => by rw [← Option.some.inj hc]; rfl)
  have hspace : ws (0x20 :: c :: s) = c :: s := ws_append (b := [0x20]) (s := c :: s) (by simp [isBlank]) fun d hd => by
    rw [← Option.some.inj hd]
    exact hblank
  have hne' : ¬ (c :: s).head? = some 0x3d := fun h => heq (Option.some.inj h)
  unfold round
  simp only [if_neg hcomma]
  simp only [hws, htok, if_neg hne, hspace, if_neg hne']

/-! ### The keys of the formatter -/

lemma of_mem_order {k : JsString} (h : k ∈ order) :
    k ≠ [] ∧ (∀ c ∈ k, isTokenUnit c = true) ∧ toLowerCase k = k ∧ k ≠ units "__proto__" := by
  have hall : ∀ k ∈ order, k ≠ [] ∧ k.all isTokenUnit = true ∧ toLowerCase k = k ∧ k ≠ units "__proto__" := by
    decide
  obtain ⟨hne, htok, hlower, hproto⟩ := hall k h
  exact ⟨hne, List.all_eq_true.mp htok, hlower, hproto⟩

/-- The parameters of a challenge that the formatter takes: keys of its own, and no empty value. -/
structure Formattable (params : Params) : Prop where
  keys : ∀ k v, params k = some v → k ∈ order ∧ v ≠ []
  nonempty : ∃ k, params k ≠ none

/-- The parameters of a list, assigned one after another. -/
def assigned (params : Params) (pairs : List (JsString × JsString)) : Params :=
  pairs.foldl (fun params p => setParam params (toLowerCase p.1) p.2) params

lemma assigned_filterMap {params : Params} (hparams : Formattable params) {keys : List JsString}
    (hkeys : ∀ k ∈ keys, k ∈ order) (init : Params) (k : JsString) :
    assigned init (keys.filterMap (param params)) k = if k ∈ keys then (params k).or (init k) else init k := by
  induction keys generalizing init with
  | nil => simp [assigned]
  | cons key keys ih =>
    obtain ⟨hkey, hrest⟩ := List.forall_mem_cons.mp hkeys
    obtain ⟨-, -, hlower, hproto⟩ := of_mem_order hkey
    have hih := ih hrest
    cases hv : params key with
    | none =>
      have hparam : param params key = none := by rw [param, hv]
      rw [List.filterMap_cons_none hparam, hih]
      by_cases hk : k = key
      · subst hk
        simp [hv]
      · simp [hk]
    | some v =>
      have hparam : param params key = some (key, v) := by
        rw [param, hv]
        exact if_neg (hparams.keys key v hv).2
      have hset : setParam init key v = Function.update init key (some v) := if_neg hproto
      rw [List.filterMap_cons_some hparam, assigned, List.foldl_cons, hlower, hset]
      refine (hih _).trans ?_
      by_cases hk : k = key
      · subst hk
        simp [hv]
      · simp [hk]

/-- The parameters in the order of the formatter are the parameters. -/
lemma assigned_order {params : Params} (hparams : Formattable params) :
    assigned (fun _ => none) (order.filterMap (param params)) = params := by
  funext k
  rw [assigned_filterMap hparams fun _ h => h]
  split
  · rw [Option.or_none]
  · next hk =>
    cases hv : params k with
    | none => rfl
    | some v => exact absurd (hparams.keys k v hv).1 hk

lemma key_of_mem {params : Params} {p : JsString × JsString} (h : p ∈ order.filterMap (param params)) :
    p.1 ∈ order := by
  obtain ⟨k, hk, hp⟩ := List.mem_filterMap.mp h
  unfold param at hp
  split at hp
  · cases hp
  · split at hp
    · cases hp
    · rw [← Option.some.inj hp]
      exact hk

lemma params_ne_nil {params : Params} (hparams : Formattable params) : order.filterMap (param params) ≠ [] := by
  intro hnil
  obtain ⟨k, hk⟩ := hparams.nonempty
  refine hk ?_
  rw [← assigned_order hparams, hnil]
  rfl

/-! ### The run over a header -/

lemma intercalate_cons {α : Type} (sep a : List α) (l : List (List α)) :
    sep.intercalate (a :: l) = a ++ l.flatMap fun b => sep ++ b := by
  induction l generalizing a with
  | nil => simp
  | cons b l ih => rw [List.intercalate_cons_cons, ih, List.flatMap_cons, List.append_assoc, List.append_assoc]

lemma ne_nil_of_append {α : Type} {b : List α} {c : α} {s : List α} : b ++ c :: s ≠ [] := by simp

/-- The parameters that follow a comma. -/
lemma ends_params {pairs : List (JsString × JsString)} (hpairs : ∀ p ∈ pairs, p.1 ∈ order) {s : JsString}
    {out result : List Challenge} {c : Challenge}
    (h : Ends ⟨s, out, some { c with params := assigned c.params pairs }⟩ result) :
    Ends ⟨(pairs.flatMap fun p => units ", " ++ (p.1 ++ 0x3d :: q p.2)) ++ s, out, some c⟩ result := by
  induction pairs generalizing c with
  | nil => exact h
  | cons p pairs ih =>
    obtain ⟨hp, hrest⟩ := List.forall_mem_cons.mp hpairs
    obtain ⟨hne, htok, -, -⟩ := of_mem_order hp
    have htext : ((p :: pairs).flatMap fun p => units ", " ++ (p.1 ++ 0x3d :: q p.2)) ++ s =
        [] ++ 0x2c :: ([0x20] ++ (p.1 ++ 0x3d :: (q p.2 ++
          ((pairs.flatMap fun p => units ", " ++ (p.1 ++ 0x3d :: q p.2)) ++ s)))) := by
      simp [units]
    rw [htext]
    refine ends_round ne_nil_of_append ?_
    rw [round_comma (by simp)]
    refine ends_round (by simp) ?_
    rw [round_param (by simp [isBlank]) htok hne]
    exact ih hrest h

/-- One challenge, after blanks. -/
lemma ends_challenge {b : JsString} (hb : ∀ c ∈ b, isBlank c = true) {params : Params} (hparams : Formattable params)
    {s : JsString} {out result : List Challenge} {cur : Option Challenge}
    (h : Ends ⟨s, (Scan.mk [] out cur).found, some ⟨units "Payment", params⟩⟩ result) :
    Ends ⟨b ++ (formatWwwAuthenticate params ++ s), out, cur⟩ result := by
  unfold formatWwwAuthenticate
  have hkeys : ∀ p ∈ order.filterMap (param params), p.1 ∈ order := fun _ => key_of_mem
  have hassigned := assigned_order hparams
  cases hlist : order.filterMap (param params) with
  | nil => exact absurd hlist (params_ne_nil hparams)
  | cons p pairs =>
    rw [hlist] at hkeys hassigned
    obtain ⟨hp, hrest⟩ := List.forall_mem_cons.mp hkeys
    obtain ⟨hne, htok, -, -⟩ := of_mem_order hp
    obtain ⟨c, k, hk⟩ := List.exists_cons_of_ne_nil hne
    have htext : (units "Payment " ++ (units ", ").intercalate ((p :: pairs).map fun p => p.1 ++ 0x3d :: q p.2)) ++ s =
        units "Payment" ++ 0x20 :: c :: (k ++ 0x3d :: (q p.2 ++
          ((pairs.flatMap fun p => units ", " ++ (p.1 ++ 0x3d :: q p.2)) ++ s))) := by
      rw [List.map_cons, intercalate_cons, hk, List.flatMap_map]
      simp [units]
    rw [htext]
    refine ends_round (by simp [units]) ?_
    rw [round_scheme hb (List.all_eq_true.mp (by decide)) (by decide) (htok c (hk ▸ List.mem_cons_self))]
    have htext' : c :: (k ++ 0x3d :: (q p.2 ++
        ((pairs.flatMap fun p => units ", " ++ (p.1 ++ 0x3d :: q p.2)) ++ s))) =
        [] ++ (p.1 ++ 0x3d :: (q p.2 ++ ((pairs.flatMap fun p => units ", " ++ (p.1 ++ 0x3d :: q p.2)) ++ s))) := by
      rw [hk]
      rfl
    rw [htext']
    refine ends_round (by simp [hk]) ?_
    rw [round_param (by simp) htok hne]
    refine ends_params hrest ?_
    rw [← hassigned] at h
    exact h

/-- The challenges that follow, each after a comma and blanks. -/
lemma ends_challenges {b : JsString} (hb : ∀ c ∈ b, isBlank c = true) {cs : List Params}
    (hcs : ∀ params ∈ cs, Formattable params) (out : List Challenge) (c : Challenge)
    (hc : toLowerCase c.scheme = units "payment") :
    Ends ⟨cs.flatMap fun params => (0x2c :: b) ++ formatWwwAuthenticate params, out, some c⟩
      (out ++ c :: cs.map fun params => ⟨units "Payment", params⟩) := by
  have hfound : ∀ s, (Scan.mk s out (some c)).found = out ++ [c] := by
    intro s
    simp [Scan.found, hc]
  induction cs generalizing out c with
  | nil =>
    have hend := ends_nil (p := ⟨[], out, some c⟩) rfl
    rw [hfound] at hend
    exact hend
  | cons params cs ih =>
    obtain ⟨hparams, hrest⟩ := List.forall_mem_cons.mp hcs
    have htext : ((params :: cs).flatMap fun params => (0x2c :: b) ++ formatWwwAuthenticate params) =
        [] ++ 0x2c :: (b ++ (formatWwwAuthenticate params ++
          cs.flatMap fun params => (0x2c :: b) ++ formatWwwAuthenticate params)) := by
      simp
    rw [htext]
    refine ends_round ne_nil_of_append ?_
    rw [round_comma (by simp)]
    refine ends_challenge hb hparams ?_
    rw [hfound]
    have hscheme : toLowerCase (units "Payment") = units "payment" := by decide
    have hend := ih hrest (out ++ [c]) ⟨units "Payment", params⟩ hscheme fun s => by simp [Scan.found, hscheme]
    rwa [List.append_assoc] at hend

/-- **Round trip.** Challenges that are formatted and joined with a comma (and blanks, if any) are found again, in
their order and with the same parameters; and on every text the scanner comes to an end. -/
theorem parse_format :
    (∀ (cs : List Params) (b : JsString), (∀ params ∈ cs, Formattable params) → (∀ c ∈ b, isBlank c = true) →
      ((0x2c :: b).intercalate (cs.map formatWwwAuthenticate)).length ≤ 64 * 1024 →
      ∀ fuel, ((0x2c :: b).intercalate (cs.map formatWwwAuthenticate)).length ≤ fuel →
        parseWwwAuthenticate fuel ((0x2c :: b).intercalate (cs.map formatWwwAuthenticate)) =
          some (cs.map fun params => ⟨units "Payment", params⟩)) ∧
    ∀ value, ∃ out, ∀ fuel, value.length ≤ fuel → parseWwwAuthenticate fuel value = some out := by
  constructor
  · intro cs b hcs hb hlen fuel hfuel
    rw [parseWwwAuthenticate, if_neg (by omega)]
    refine (?_ : Ends ⟨_, [], none⟩ _) fuel hfuel
    cases cs with
    | nil => exact ends_nil rfl
    | cons params cs =>
      obtain ⟨hparams, hrest⟩ := List.forall_mem_cons.mp hcs
      have hscheme : toLowerCase (units "Payment") = units "payment" := by decide
      rw [List.map_cons, intercalate_cons, List.flatMap_map]
      exact ends_challenge (b := []) (by simp) hparams (ends_challenges hb hrest [] _ hscheme)
  · intro value
    obtain ⟨out, hout⟩ := exists_ends ⟨value, [], none⟩
    by_cases hlong : 64 * 1024 < value.length
    · exact ⟨[], fun fuel _ => if_pos hlong⟩
    · exact ⟨out, fun fuel hfuel => (if_neg hlong).trans (hout fuel hfuel)⟩

/-- The challenge with a realm and nothing else. -/
def realmOnly (realm : JsString) : Params := Function.update (fun _ => none) (units "realm") (some realm)

/-- A realm that reads like the end of a challenge and the next one, and one of a backslash and a quote. -/
theorem parse_format_realms :
    parseWwwAuthenticate 80 (units "Payment realm=\"r\\\", Payment id=\\\"x\", Payment realm=\"\\\\\\\"\"") =
      some [⟨units "Payment", realmOnly (units "r\", Payment id=\"x")⟩, ⟨units "Payment", realmOnly (units "\\\"")⟩] := by
  have hrealm : ∀ realm, realm ≠ [] → Formattable (realmOnly realm) := by
    intro realm hne
    refine ⟨fun k v hv => ?_, units "realm", by simp [realmOnly]⟩
    unfold realmOnly at hv
    by_cases hk : k = units "realm"
    · rw [hk, Function.update_self] at hv
      exact ⟨hk ▸ by decide, Option.some.inj hv ▸ hne⟩
    · rw [Function.update_of_ne hk] at hv
      cases hv
  have htext : units "Payment realm=\"r\\\", Payment id=\\\"x\", Payment realm=\"\\\\\\\"\"" =
      [0x2c, 0x20].intercalate ([realmOnly (units "r\", Payment id=\"x"), realmOnly (units "\\\"")].map
        formatWwwAuthenticate) := by decide
  rw [htext]
  refine parse_format.1 _ [0x20] ?_ (by simp [isBlank]) (by decide) 80 (by decide)
  intro params hmem
  rcases List.mem_cons.mp hmem with rfl | hmem
  · exact hrealm _ (by decide)
  · rw [List.mem_singleton.mp hmem]
    exact hrealm _ (by decide)

end ShadeTree.Payments
