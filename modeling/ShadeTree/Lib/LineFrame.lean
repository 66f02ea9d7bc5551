import Mathlib.Data.List.TakeWhile
import Mathlib.Tactic.Common

/-!
# The first line of a stream

A stream comes in chunks, and a reader waits for the first line, of a bounded length.  What a beginning of the
stream tells, if it tells anything, the whole stream tells too; so a reader that asks after every chunk about what
it has so far answers as if it had been given the stream at once, however it was cut.
-/

namespace ShadeTree.Lib

/-- What the beginning of a stream tells of its first line: it is not there yet, it is too long, or it is `l` and
`r` follows. -/
inductive Frame (α : Type*) where
  | more
  | tooLong
  | line (l r : List α)

namespace Frame

variable {α : Type*} [DecidableEq α] (nl : α) (cap : ℕ)

def of (s : List α) : Frame α :=
  if cap < (s.takeWhile (· ≠ nl)).length then tooLong
  else
    match s.dropWhile (· ≠ nl) with
    | [] => more
    | _ :: r => line (s.takeWhile (· ≠ nl)) r

/-- The same when `t` comes later. -/
def later (t : List α) : Frame α → Frame α
  | line l r => line l (r ++ t)
  | f => f

variable {nl cap}

lemma of_more {s : List α} : of nl cap s = more ↔ nl ∉ s ∧ s.length ≤ cap := by
  have hmem : nl ∉ s ↔ s.dropWhile (· ≠ nl) = [] := by
    rw [List.dropWhile_eq_nil_iff]
    exact ⟨fun h x hx => decide_eq_true fun he => h (he ▸ hx), fun h hx => absurd rfl (of_decide_eq_true (h nl hx))⟩
  have htake : s.dropWhile (· ≠ nl) = [] → s.takeWhile (· ≠ nl) = s := by
    intro h
    conv_rhs => rw [← List.takeWhile_append_dropWhile (p := (· ≠ nl)) (l := s), h, List.append_nil]
  unfold of
  constructor
  · intro h
    split at h
    · cases h
    · next hcap =>
      split at h
      · next hnil =>
        rw [htake hnil] at hcap
        exact ⟨hmem.mpr hnil, by omega⟩
      · cases h
  · rintro ⟨hno, hlen⟩
    have hnil := hmem.mp hno
    rw [htake hnil, if_neg (by omega), hnil]

/-- Where the line ends. -/
lemma of_append_cons {l r : List α} (h : nl ∉ l) :
    of nl cap (l ++ nl :: r) = if cap < l.length then tooLong else line l r := by
  have hall : ∀ x ∈ l, decide (x ≠ nl) = true := fun x hx => decide_eq_true fun he => h (he ▸ hx)
  unfold of
  rw [List.takeWhile_append_of_pos hall, List.dropWhile_append_of_pos hall, List.takeWhile_cons_of_neg (by simp),
    List.dropWhile_cons_of_neg (by simp), List.append_nil]

lemma of_tooLong {s : List α} (h : nl ∉ s) (hlen : cap < s.length) (t : List α) : of nl cap (s ++ t) = tooLong := by
  have hall : ∀ x ∈ s, decide (x ≠ nl) = true := fun x hx => decide_eq_true fun he => h (he ▸ hx)
  unfold of
  rw [List.takeWhile_append_of_pos hall, List.length_append, if_pos (by omega)]

/-- **What a beginning tells, the whole tells.** -/
theorem of_append {s : List α} (h : of nl cap s ≠ more) (t : List α) : of nl cap (s ++ t) = (of nl cap s).later t := by
  by_cases hmem : nl ∈ s
  · obtain ⟨l, r, rfl, hl⟩ := List.eq_append_cons_of_mem hmem
    rw [List.append_assoc, List.cons_append, of_append_cons hl, of_append_cons hl]
    split <;> rfl
  · have hlen : cap < s.length := by
      by_contra hle
      exact h (of_more.mpr ⟨hmem, by omega⟩)
    have hself := of_tooLong hmem hlen []
    rw [List.append_nil] at hself
    rw [of_tooLong hmem hlen, hself]
    rfl

lemma idxOf?_append_cons {l r : List α} (h : nl ∉ l) : (l ++ nl :: r).idxOf? nl = some l.length := by
  induction l with
  | nil => rw [List.nil_append, List.idxOf?_cons, if_pos (beq_self_eq_true nl), List.length_nil]
  | cons x l ih =>
    rw [List.mem_cons, not_or] at h
    rw [List.cons_append, List.idxOf?_cons, if_neg (by simpa using Ne.symm h.1), ih h.2]
    rfl

/-- What is known of a text by the place of the separator in it. -/
lemma of_cases (nl : α) (cap : ℕ) (s : List α) :
    (s.idxOf? nl = none ∧ nl ∉ s ∧ of nl cap s = if cap < s.length then tooLong else more) ∨
    ∃ l r, s = l ++ nl :: r ∧ nl ∉ l ∧ s.idxOf? nl = some l.length ∧
      of nl cap s = if cap < l.length then tooLong else line l r := by
  by_cases h : nl ∈ s
  · obtain ⟨l, r, rfl, hl⟩ := List.eq_append_cons_of_mem h
    exact .inr ⟨l, r, rfl, hl, idxOf?_append_cons hl, of_append_cons hl⟩
  · refine .inl ⟨List.idxOf?_eq_none_iff.mpr h, h, ?_⟩
    split
    · next hlen => simpa using of_tooLong h hlen []
    · next hlen => exact of_more.mpr ⟨h, by omega⟩

/-- A reader that has `buf`, of which nothing is known yet, and looks again at each chunk. -/
def scan (nl : α) (cap : ℕ) (buf : List α) : List (List α) → Frame α
  | [] => more
  | chunk :: chunks =>
    match of nl cap (buf ++ chunk) with
    | more => scan nl cap (buf ++ chunk) chunks
    | f => f.later chunks.flatten

/-- **The chunks make no difference.** -/
theorem scan_eq {buf : List α} (h : of nl cap buf = more) (chunks : List (List α)) :
    scan nl cap buf chunks = of nl cap (buf ++ chunks.flatten) := by
  induction chunks generalizing buf with
  | nil => rw [List.flatten_nil, List.append_nil, h, scan]
  | cons chunk chunks ih =>
    rw [List.flatten_cons, ← List.append_assoc]
    unfold scan
    split
    · next hmore => exact ih hmore
    · next hne => exact (of_append (by simpa using hne) _).symm

end Frame

end ShadeTree.Lib
