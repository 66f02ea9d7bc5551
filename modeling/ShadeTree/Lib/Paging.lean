import Mathlib.Data.List.Range
import Mathlib.Data.List.Perm.Basic
import Mathlib.Order.Lattice
import Mathlib.Tactic.Common

/-!
# Reading a range in windows

A range is read from a cursor on, in windows as wide as the current size or up to the end of the range.  Behind a
window that is answered the cursor goes on; one that is refused as too wide is asked for again with a smaller size,
until there is none.  How a pager computes the end of a window and the cursor behind it is a parameter: the numbers
of a program may round or saturate.

While they do not (`Exact`), reading ends after a bounded number of requests, and the windows that were answered
make up the range.
-/

namespace ShadeTree.Lib.Paging

/-! ### Windows -/

structure Window where
  first : ℕ
  last : ℕ
  deriving DecidableEq

def Window.positions (w : Window) : List ℕ := List.range' w.first (w.last + 1 - w.first)

/-- The windows, one behind the other, are the range: each of its positions is in one of them, once and in order. -/
def Tiles (range : Window) (ws : List Window) : Prop := ws.flatMap Window.positions = range.positions

lemma positions_of_lt {a b : ℕ} (h : b < a) : (Window.mk a b).positions = [] := by
  have : b + 1 - a = 0 := by omega
  simp [Window.positions, this]

lemma positions_cons {a b : ℕ} (h : a ≤ b) : (Window.mk a b).positions = a :: (Window.mk (a + 1) b).positions := by
  obtain ⟨n, rfl⟩ : ∃ n, b = a + n := ⟨b - a, by omega⟩
  have hlen : a + n + 1 - a = n + 1 := by omega
  have hrest : a + n + 1 - (a + 1) = n := by omega
  simp [Window.positions, hlen, hrest, List.range'_succ]

lemma tiles_nil {a b : ℕ} (h : b < a) : Tiles ⟨a, b⟩ [] := (positions_of_lt h).symm

lemma Tiles.cons {a e b : ℕ} {ws : List Window} (h : Tiles ⟨e + 1, b⟩ ws) (hae : a ≤ e) (heb : e ≤ b) :
    Tiles ⟨a, b⟩ (⟨a, e⟩ :: ws) := by
  have hsplit : b + 1 - a = (e + 1 - a) + (b + 1 - (e + 1)) := by omega
  have hnext : e + 1 = a + (e + 1 - a) := by omega
  rw [Tiles, List.flatMap_cons, h]
  simp only [Window.positions]
  rw [hsplit, ← List.range'_append_1, ← hnext]

section Items

variable {α : Type*} (pos : α → ℕ) (items : List α)

/-- The items at the positions of a window. -/
def within (w : Window) : List α := items.filter fun x => decide (w.first ≤ pos x ∧ pos x ≤ w.last)

def atPos (k : ℕ) : List α := items.filter fun x => decide (pos x = k)

variable {pos items}

lemma within_of_lt {a b : ℕ} (h : b < a) : within pos items ⟨a, b⟩ = [] := by
  refine List.filter_eq_nil_iff.mpr fun x _ hx => ?_
  have := of_decide_eq_true hx
  simp only at this
  omega

lemma within_filter {a b : ℕ} (h : a ≤ b) :
    (within pos items ⟨a, b⟩).filter (fun x => decide (pos x = a)) = atPos pos items a ∧
      (within pos items ⟨a, b⟩).filter (fun x => !decide (pos x = a)) = within pos items ⟨a + 1, b⟩ := by
  simp only [within, atPos, List.filter_filter]
  constructor
  · refine List.filter_congr fun x _ => ?_
    simp only [← Bool.decide_and, decide_eq_decide]
    omega
  · refine List.filter_congr fun x _ => ?_
    simp only [← decide_not, ← Bool.decide_and, decide_eq_decide]
    omega

/-- The items of a window, position by position. -/
lemma within_perm (a b : ℕ) :
    (within pos items ⟨a, b⟩).Perm ((Window.mk a b).positions.flatMap (atPos pos items)) := by
  by_cases h : a ≤ b
  · have hsplit := @within_filter _ pos items _ _ h
    rw [positions_cons h, List.flatMap_cons]
    refine (List.filter_append_perm (fun x => decide (pos x = a)) _).symm.trans ?_
    rw [hsplit.1, hsplit.2]
    exact (within_perm (a + 1) b).append_left _
  · rw [within_of_lt (by omega), positions_of_lt (by omega)]
    exact .refl _
termination_by b + 1 - a

/-- In sorted items those of the first position stand before the others. -/
lemma within_eq_append (hsorted : items.Pairwise fun x y => pos x ≤ pos y) {a b : ℕ} (h : a ≤ b) :
    within pos items ⟨a, b⟩ = atPos pos items a ++ within pos items ⟨a + 1, b⟩ := by
  induction items with
  | nil => rfl
  | cons x items ih =>
    obtain ⟨hx, hrest⟩ := List.pairwise_cons.mp hsorted
    have ih := ih hrest
    by_cases hlt : a < pos x
    · -- nothing behind `x` is at the first position
      have hnone : atPos pos (x :: items) a = [] := by
        refine List.filter_eq_nil_iff.mpr fun y hy heq => ?_
        have heq := of_decide_eq_true heq
        rcases List.mem_cons.mp hy with rfl | hy
        · omega
        · have := hx y hy
          omega
      rw [hnone, List.nil_append]
      refine List.filter_congr fun y hy => ?_
      have hle : pos x ≤ pos y := by
        rcases List.mem_cons.mp hy with rfl | hy
        · exact le_rfl
        · exact hx y hy
      simp only [decide_eq_decide]
      omega
    · have hout : decide (a + 1 ≤ pos x ∧ pos x ≤ b) = false := by simp; omega
      simp only [within, atPos, List.filter_cons, hout] at ih ⊢
      by_cases heq : pos x = a
      · simpa [heq, h] using ih
      · have hlow : ¬a ≤ pos x := by omega
        simpa [heq, hlow] using ih

lemma within_eq (hsorted : items.Pairwise fun x y => pos x ≤ pos y) (a b : ℕ) :
    within pos items ⟨a, b⟩ = (Window.mk a b).positions.flatMap (atPos pos items) := by
  by_cases h : a ≤ b
  · rw [within_eq_append hsorted h, positions_cons h, List.flatMap_cons, within_eq hsorted (a + 1) b]
  · rw [within_of_lt (by omega), positions_of_lt (by omega)]
    rfl
termination_by b + 1 - a

variable {range : Window} {ws : List Window}

/-- The windows of a tiling hold the items of the range, each once. -/
theorem Tiles.perm_within (h : Tiles range ws) : (ws.flatMap (within pos items)).Perm (within pos items range) := by
  calc (ws.flatMap (within pos items)).Perm (ws.flatMap fun w => w.positions.flatMap (atPos pos items)) :=
        List.Perm.flatMap_left _ fun w _ => within_perm w.first w.last
    _ = (ws.flatMap Window.positions).flatMap (atPos pos items) := List.flatMap_assoc.symm
    _ = range.positions.flatMap (atPos pos items) := by rw [h]
    List.Perm _ (within pos items range) := (within_perm range.first range.last).symm

/-- Of sorted items they hold those of the range in their order. -/
theorem Tiles.within_eq (h : Tiles range ws) (hsorted : items.Pairwise fun x y => pos x ≤ pos y) :
    ws.flatMap (within pos items) = within pos items range := by
  calc ws.flatMap (within pos items) = ws.flatMap fun w => w.positions.flatMap (atPos pos items) := by
        congr 1
        funext w
        exact Paging.within_eq hsorted w.first w.last
    _ = (ws.flatMap Window.positions).flatMap (atPos pos items) := List.flatMap_assoc.symm
    _ = range.positions.flatMap (atPos pos items) := by rw [h]
    _ = within pos items range := (Paging.within_eq hsorted range.first range.last).symm

end Items

/-! ### Reading -/

/-- What a pager computes: the last position of the window at a cursor, for a size; the cursor behind a window; the
next smaller size. -/
structure Pager where
  last : ℕ → ℕ → ℕ
  next : ℕ → ℕ
  shrink : ℕ → Option ℕ

/-- How reading came out, and the windows that were answered on the way, with their items. -/
structure Outcome (ε α : Type*) where
  accepted : List (Window × List α)
  result : Except ε (List α)

section Read

variable {ε α : Type*} (P : Pager) (tooWide : ε → Bool) (ask : ℕ → Window → Except ε (List α)) (stop : ℕ)

/-- Reading up to `stop`, the next request being number `n`; nothing when it takes more requests than `fuel`. -/
def readRange : ℕ → ℕ → ℕ → ℕ → List (Window × List α) → Option (Outcome ε α)
  | fuel, n, cursor, size, accepted =>
    if cursor ≤ stop then
      match fuel with
      | 0 => none
      | fuel + 1 =>
        match ask n ⟨cursor, P.last cursor size⟩ with
        | .ok items =>
          readRange fuel (n + 1) (P.next (P.last cursor size)) size (accepted ++ [(⟨cursor, P.last cursor size⟩, items)])
        | .error e =>
          if tooWide e then
            match P.shrink size with
            | some size => readRange fuel (n + 1) cursor size accepted
            | none => some ⟨accepted, .error e⟩
          else some ⟨accepted, .error e⟩
    else some ⟨accepted, .ok (accepted.flatMap Prod.snd)⟩

/-- The pager computes without error up to `stop`, and its sizes do not fall below `least`. -/
structure Exact (least : ℕ) : Prop where
  pos : 0 < least
  last : ∀ cursor ≤ stop, ∀ size, least ≤ size → P.last cursor size = min stop (cursor + size - 1)
  next : ∀ last ≤ stop, P.next last = last + 1
  shrink : ∀ size smaller, P.shrink size = some smaller → least ≤ smaller ∧ smaller < size

/-- The requests that may still be made. -/
def requests (least cursor size : ℕ) : ℕ := (stop + least - cursor) / least + (size - least)

variable {P tooWide ask stop} {least : ℕ} {fuel n cursor size : ℕ} {accepted : List (Window × List α)}

lemma requests_next (hleast : 0 < least) (hsize : least ≤ size) (hcursor : cursor ≤ stop) :
    requests stop least (min stop (cursor + size - 1) + 1) size < requests stop least cursor size := by
  have hdiv : (stop + least - cursor) / least = (stop - cursor) / least + 1 := by
    rw [show stop + least - cursor = stop - cursor + least by omega, Nat.add_div_right _ hleast]
  have hle : (stop + least - (min stop (cursor + size - 1) + 1)) / least ≤ (stop - cursor) / least := by
    rcases Nat.lt_or_ge stop (cursor + size) with hend | hend
    · rw [show stop + least - (min stop (cursor + size - 1) + 1) = least - 1 by omega, Nat.div_eq_of_lt (by omega)]
      exact Nat.zero_le _
    · exact Nat.div_le_div_right (by omega)
  unfold requests
  omega

/-- **Reading ends** after as many requests at most. -/
theorem readRange_ends (hexact : Exact P stop least) (hsize : least ≤ size) (hfuel : requests stop least cursor size ≤ fuel) :
    ∃ o, readRange P tooWide ask stop fuel n cursor size accepted = some o := by
  induction fuel generalizing n cursor size accepted with
  | zero =>
    have hpos := hexact.pos
    have hdone : ¬cursor ≤ stop := by
      intro hle
      have : 1 ≤ (stop + least - cursor) / least := (Nat.one_le_div_iff hpos).mpr (by omega)
      unfold requests at hfuel
      omega
    exact ⟨_, by rw [readRange, if_neg hdone]⟩
  | succ fuel ih =>
    rw [readRange]
    split
    · next hcursor =>
      split
      · rw [hexact.last cursor hcursor size hsize, hexact.next _ (by omega)]
        have := requests_next hexact.pos hsize hcursor
        exact ih hsize (by omega)
      · split
        · split
          · next smaller hshrink =>
            obtain ⟨hleast, hlt⟩ := hexact.shrink _ _ hshrink
            refine ih hleast ?_
            unfold requests at hfuel ⊢
            omega
          · exact ⟨_, rfl⟩
        · exact ⟨_, rfl⟩
    · exact ⟨_, rfl⟩

/-- **The range is covered.** When reading succeeds, the windows that were answered, behind those before, make up the
range from the cursor on, and the items are theirs. -/
theorem readRange_tiles (hexact : Exact P stop least) (hsize : least ≤ size) {o : Outcome ε α} {items : List α}
    (hread : readRange P tooWide ask stop fuel n cursor size accepted = some o) (hok : o.result = .ok items) :
    ∃ pages, o.accepted = accepted ++ pages ∧ Tiles ⟨cursor, stop⟩ (pages.map Prod.fst) ∧
      (∀ p ∈ pages, p.1.first ≤ p.1.last ∧ ∃ k, ask k p.1 = .ok p.2) ∧ items = o.accepted.flatMap Prod.snd := by
  induction fuel generalizing n cursor size accepted with
  | zero =>
    rw [readRange] at hread
    split at hread
    · cases hread
    · obtain rfl := Option.some.inj hread
      exact ⟨[], (List.append_nil _).symm, tiles_nil (by omega), by simp, (Except.ok.inj hok).symm⟩
  | succ fuel ih =>
    rw [readRange] at hread
    split at hread
    · next hcursor =>
      split at hread
      · next page hask =>
        rw [hexact.last cursor hcursor size hsize] at hread hask
        rw [hexact.next _ (by omega)] at hread
        obtain ⟨pages, hpages, htiles, hasked, hitems⟩ := ih hsize hread
        have hpos := hexact.pos
        refine ⟨(⟨cursor, min stop (cursor + size - 1)⟩, page) :: pages, by simp [hpages], ?_, ?_, hitems⟩
        · exact htiles.cons (by omega) (by omega)
        · intro p hp
          rcases List.mem_cons.mp hp with rfl | hp
          · exact ⟨by show cursor ≤ min stop _; omega, n, hask⟩
          · exact hasked p hp
      · split at hread
        · split at hread
          · next smaller hshrink => exact ih (hexact.shrink _ _ hshrink).1 hread
          · obtain rfl := Option.some.inj hread
            cases hok
        · obtain rfl := Option.some.inj hread
          cases hok
    · obtain rfl := Option.some.inj hread
      exact ⟨[], (List.append_nil _).symm, tiles_nil (by omega), by simp, (Except.ok.inj hok).symm⟩

/-- A pager that never leaves the range behind, on answers to all requests, never ends. -/
theorem readRange_none (hinside : ∀ cursor size, cursor ≤ stop → P.next (P.last cursor size) ≤ stop)
    (hask : ∀ n w, ∃ items, ask n w = .ok items) (hcursor : cursor ≤ stop) :
    readRange P tooWide ask stop fuel n cursor size accepted = none := by
  induction fuel generalizing n cursor accepted with
  | zero => rw [readRange, if_pos hcursor]
  | succ fuel ih =>
    obtain ⟨items, hitems⟩ := hask n ⟨cursor, P.last cursor size⟩
    rw [readRange, if_pos hcursor]
    simp only [hitems]
    exact ih (hinside cursor size hcursor)

end Read

end ShadeTree.Lib.Paging
