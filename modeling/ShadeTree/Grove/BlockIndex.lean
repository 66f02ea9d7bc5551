import ShadeTree.Grove.Activity
import ShadeTree.Lib.Revise
import ShadeTree.Lib.Run
import Mathlib.Data.List.Sort

/-!
# The index of blocks (`applyIndexedBlocks` in `lib/grove-onchain.mjs`)

The collector keeps the blocks it was given with the activity of their events.  A batch is taken in by ascending
number: a known block is skipped, a block with the number of a known one and another hash replaces the known one and
everything after it, and any other block goes to the end.

Nothing compares the number of a block that goes to the end with the last one there.  A late lower block is appended
after the higher ones (`index_not_ascending`); where no call brings one, the index is what it should be
(`index_consistent`).
-/

namespace ShadeTree.Grove

open ShadeTree.Lib

/-- A block as it is given; `parentHash` is `none` where it is no string, `events` where it is no array. -/
structure Block where
  number : ℤ
  hash : String
  parentHash : Option String
  events : Option (List ActivityEvent)
  deriving DecidableEq, Repr

/-- The events of a block that has the right shape. -/
def Block.logs (block : Block) : List ActivityEvent := block.events.getD []

/-- `hash.toLowerCase()`, by which blocks of one number are compared. -/
def Block.tag (block : Block) : String := block.hash.toLower

/-- The state of the index. -/
structure Index where
  blocks : List Block
  activity : Option Activity
  deriving DecidableEq

def Index.start : Index := ⟨[], none⟩

/-- The test behind `fail("block-shape")`. -/
def wellShaped (block : Block) : Bool :=
  0 ≤ block.number && block.number ≤ MAX_SAFE_INTEGER && (lowerHash block.hash).isSome &&
    (block.number ≤ 0 || (block.parentHash.bind lowerHash).isSome) && block.events.isSome

namespace Index

/-- `state.blocks.findIndex(..)` read at the index: the known block with this number. -/
def known (state : Index) (number : ℤ) : Option Block := state.blocks.find? fun block => block.number = number

/-- The test behind `fail("block-parent")`. -/
def parentAgrees (state : Index) (block : Block) : Bool :=
  match state.blocks.getLast? with
  | none => true
  | some parent => block.number ≠ parent.number + 1 || block.parentHash.map String.toLower = some parent.tag

end Index

section Apply

variable (isAddress : String → Bool) (chainId : ℤ)

/-- One block into the activity so far. -/
def reduceBlock (activity : Option Activity) (block : Block) : Except Fail (Option Activity) :=
  match reduceActivityEvents isAddress chainId activity block.logs with
  | .ok next => .ok (some next)
  | .error why => .error why

/-- `slice(0, existingIndex)` with the activity of what is left. -/
def rewind (state : Index) (block : Block) : Except Fail Index :=
  let blocks := state.blocks.takeWhile fun known => known.number ≠ block.number
  match blocks.foldlM (reduceBlock isAddress chainId) none with
  | .ok activity => .ok ⟨blocks, activity⟩
  | .error why => .error why

/-- The known block with the number of this one goes where its hash differs. -/
def dropReplaced (state : Index) (block : Block) : Except Fail Index :=
  match state.known block.number with
  | some existing => if existing.tag ≠ block.tag then rewind isAddress chainId state block else .ok state
  | none => .ok state

def append (state : Index) (block : Block) : Except Fail Index :=
  if state.blocks.any fun known => known.number = block.number then .ok state
  else
    match reduceBlock isAddress chainId state.activity block with
    | .ok activity => .ok ⟨state.blocks ++ [block], activity⟩
    | .error why => .error why

/-- One turn of the loop of `applyIndexedBlocks`. -/
def applyBlock (state : Index) (block : Block) : Except Fail Index :=
  if ¬ wellShaped block then .error .blockShape
  else
    match dropReplaced isAddress chainId state block with
    | .error why => .error why
    | .ok left => if left.parentAgrees block then append isAddress chainId left block else .error .blockParent

/-- `[...blocks].sort((a, b) => a.number - b.number)`. -/
def byNumber (blocks : List Block) : List Block := blocks.insertionSort fun a b => a.number ≤ b.number

/-- `applyIndexedBlocks(previous, blocks, { chainId })`. -/
def applyIndexedBlocks (previous : Option Index) (blocks : List Block) : Except Fail Index :=
  (byNumber blocks).foldlM (applyBlock isAddress chainId) (previous.getD Index.start)

/-- The collector's calls: the state a caller holds after a call, which is the one before where the call throws. -/
def call (held : Option Index) (blocks : List Block) : Option Index × Except Fail Index :=
  match applyIndexedBlocks isAddress chainId held blocks with
  | .ok next => (some next, .ok next)
  | .error why => (held, .error why)

/-- The activity is that of the events of all blocks in order, and `null` while there is no block. -/
def Index.Reduced (state : Index) : Prop :=
  match state.activity with
  | none => state.blocks = []
  | some activity => state.blocks ≠ [] ∧
    reduceActivityEvents isAddress chainId none (state.blocks.flatMap Block.logs) = .ok activity

/-- What an index should be. -/
structure Index.Consistent (state : Index) : Prop where
  ascending : state.blocks.Pairwise fun x y => x.number < y.number
  linked : ∀ x ∈ state.blocks, ∀ y ∈ state.blocks, y.number = x.number + 1 →
    y.parentHash.map String.toLower = some (x.hash.toLower)
  reduced : state.Reduced isAddress chainId

/-- Every block of the batch has a known number, or one above all known ones, or comes after a block of the batch
that replaces a known one. -/
def Timely (held : Option Index) (blocks : List Block) : Prop :=
  Revise.Timely Block.number Block.tag (held.getD Index.start).blocks blocks

end Apply

variable {isAddress : String → Bool} {chainId : ℤ} {state next left : Index} {block : Block} {blocks : List Block}
  {activity : Option Activity}

/-! ### The activity of the blocks -/

/-- The activity before a block is what the events of the blocks so far make. -/
lemma Index.Reduced.reduce_append (h : state.Reduced isAddress chainId) (events : List ActivityEvent) :
    reduceActivityEvents isAddress chainId none (state.blocks.flatMap Block.logs ++ events) =
      reduceActivityEvents isAddress chainId state.activity events := by
  unfold Index.Reduced at h
  split at h
  · next hact =>
    rw [hact, h]
    rfl
  · next a hact =>
    rw [hact]
    exact reduceActivityEvents_append h.2

lemma Index.Reduced.append (h : state.Reduced isAddress chainId)
    (hnext : reduceBlock isAddress chainId state.activity block = .ok activity) :
    Index.Reduced isAddress chainId ⟨state.blocks ++ [block], activity⟩ := by
  unfold reduceBlock at hnext
  split at hnext
  · next a hred =>
    obtain rfl : some a = activity := by simpa using hnext
    refine ⟨by simp, ?_⟩
    rw [List.flatMap_append, List.flatMap_singleton, h.reduce_append, hred]
  · cases hnext

lemma reduced_of_foldlM (h : blocks.foldlM (reduceBlock isAddress chainId) none = .ok activity) :
    Index.Reduced isAddress chainId ⟨blocks, activity⟩ := by
  induction blocks using List.reverseRecOn generalizing activity with
  | nil =>
    obtain rfl : none = activity := by simpa [pure, Except.pure] using h
    rfl
  | append_singleton blocks block ih =>
    obtain ⟨activity', hpre, hlast⟩ := foldlM_append_ok.mp h
    obtain ⟨activity'', hblock, hnil⟩ := foldlM_cons_ok.mp hlast
    obtain rfl := Except.ok.inj hnil
    exact (ih hpre).append hblock

/-- The blocks determine the activity. -/
lemma Index.Reduced.eq (h : state.Reduced isAddress chainId) (h' : next.Reduced isAddress chainId)
    (hblocks : state.blocks = next.blocks) : state = next := by
  have hred := h.reduce_append []
  have hred' := h'.reduce_append []
  obtain ⟨blocks, activity⟩ := state
  obtain ⟨blocks', activity'⟩ := next
  obtain rfl : blocks = blocks' := hblocks
  cases activity with
  | none =>
    obtain rfl : blocks = [] := h
    cases activity' with
    | none => rfl
    | some a' => exact absurd rfl h'.1
  | some a =>
    cases activity' with
    | none => exact absurd h' h.1
    | some a' =>
      have ha := h.2.symm.trans h'.2
      obtain rfl := Except.ok.inj ha
      rfl

/-! ### One block -/

open Revise (Ascending Holds Fits below revise reviseAll)

lemma takeWhile_eq_below (h : Ascending Block.number blocks) (hmem : ∃ x ∈ blocks, x.number = block.number) :
    (blocks.takeWhile fun known => known.number ≠ block.number) = below Block.number block.number blocks := by
  induction blocks with
  | nil => rfl
  | cons a blocks ih =>
    obtain ⟨ha, htail⟩ := List.pairwise_cons.mp h
    unfold below at ih ⊢
    by_cases heq : a.number = block.number
    · have hnone : (blocks.filter fun x => x.number < block.number) = [] := by
        refine List.filter_eq_nil_iff.mpr fun x hx => ?_
        have hlt := ha x hx
        simp only [decide_eq_true_eq]
        omega
      rw [List.takeWhile_cons_of_neg (by simp [heq]), List.filter_cons_of_neg (by simp [heq]), hnone]
    · obtain ⟨x, hx, hxb⟩ := hmem
      rcases List.mem_cons.mp hx with rfl | hxt
      · exact absurd hxb heq
      · have hlt := ha x hxt
        rw [List.takeWhile_cons_of_pos (by simp [heq]),
          List.filter_cons_of_pos (by simp only [decide_eq_true_eq]; omega), ih htail ⟨x, hxt, hxb⟩]

/-- What is left before a block is put in. -/
lemma dropReplaced_cases (hs : Ascending Block.number state.blocks)
    (h : dropReplaced isAddress chainId state block = .ok left) :
    left = state ∧ (∀ x ∈ state.blocks, x.number = block.number → x.tag = block.tag) ∨
      left.blocks = below Block.number block.number state.blocks ∧ left.Reduced isAddress chainId ∧
        ¬ Holds Block.number Block.tag state.blocks block := by
  unfold dropReplaced Index.known at h
  split at h
  · next existing hfind =>
    have hmem := List.mem_of_find?_eq_some hfind
    have hnum : existing.number = block.number := by simpa using List.find?_some hfind
    split at h
    · next htag =>
      right
      simp only [rewind] at h
      split at h
      · next activity hact =>
        obtain rfl := Except.ok.inj h
        refine ⟨takeWhile_eq_below hs ⟨existing, hmem, hnum⟩, reduced_of_foldlM hact, ?_⟩
        rintro ⟨x, hx, hxn, hxt⟩
        obtain rfl := hs.eq hx hmem (hxn.trans hnum.symm)
        exact htag hxt
      · cases h
    · next htag =>
      left
      refine ⟨(Except.ok.inj h).symm, fun x hx hxn => ?_⟩
      obtain rfl := hs.eq hx hmem (hxn.trans hnum.symm)
      exact not_not.mp htag
  · next hfind =>
    left
    refine ⟨(Except.ok.inj h).symm, fun x hx hxn => ?_⟩
    exact absurd hxn (by simpa using List.find?_eq_none.mp hfind x hx)

/-- **What one block does**: it is known already, or it ends what is left below its number. -/
lemma applyBlock_cases (hs : state.Consistent isAddress chainId) (hfit : Fits Block.number state.blocks block)
    (h : applyBlock isAddress chainId state block = .ok next) :
    Holds Block.number Block.tag state.blocks block ∧ next = state ∨
      ¬ Holds Block.number Block.tag state.blocks block ∧ ∃ left : Index,
        left.blocks = below Block.number block.number state.blocks ∧ left.Reduced isAddress chainId ∧
          left.parentAgrees block = true ∧ ∃ activity,
            reduceBlock isAddress chainId left.activity block = .ok activity ∧
              next = ⟨left.blocks ++ [block], activity⟩ := by
  unfold applyBlock at h
  split at h
  · cases h
  split at h
  · cases h
  next left hdrop =>
  split at h
  case isFalse => cases h
  next hparent =>
  unfold append at h
  -- a block with this number among those that are left
  have hany : (left.blocks.any fun known => known.number = block.number) = true ↔
      ∃ x ∈ left.blocks, x.number = block.number := by simp
  rcases dropReplaced_cases hs.ascending hdrop with ⟨rfl, htag⟩ | ⟨hblocks, hred, hnot⟩
  · split at h
    · next hknown =>
      obtain ⟨x, hx, hxn⟩ := hany.mp hknown
      exact .inl ⟨⟨x, hx, hxn, htag x hx hxn⟩, (Except.ok.inj h).symm⟩
    · next hknown =>
      have hall : ∀ x ∈ left.blocks, x.number < block.number := hfit.resolve_left (hany.not.mp hknown)
      have hbelow : left.blocks = below Block.number block.number left.blocks :=
        (List.filter_eq_self.mpr fun x hx => by simpa using hall x hx).symm
      split at h
      · next activity hact =>
        refine .inr ⟨?_, left, hbelow, hs.reduced, hparent, activity, hact, (Except.ok.inj h).symm⟩
        rintro ⟨x, hx, hxn, -⟩
        exact hknown (hany.mpr ⟨x, hx, hxn⟩)
      · cases h
  · split at h
    · next hknown =>
      obtain ⟨x, hx, hxn⟩ := hany.mp hknown
      rw [hblocks, Revise.mem_below] at hx
      exact absurd hxn hx.2.ne
    · split at h
      · next activity hact =>
        exact .inr ⟨hnot, left, hblocks, hred, hparent, activity, hact, (Except.ok.inj h).symm⟩
      · cases h

/-- The last known block is the parent of a block with the next number. -/
lemma parent_of_agrees (hs : Ascending Block.number left.blocks) (hparent : left.parentAgrees block = true)
    {x : Block} (hx : x ∈ left.blocks) (hall : ∀ y ∈ left.blocks, y.number < block.number)
    (hxb : block.number = x.number + 1) : block.parentHash.map String.toLower = some x.tag := by
  obtain ⟨init, last, hlist⟩ := List.eq_nil_or_concat left.blocks |>.resolve_left (List.ne_nil_of_mem hx)
  rw [List.concat_eq_append] at hlist
  unfold Index.parentAgrees at hparent
  have hlast : left.blocks.getLast? = some last := by simp [hlist]
  have hmem : last ∈ left.blocks := by simp [hlist]
  have hle : x.number ≤ last.number := by
    rw [hlist] at hx hs
    rcases List.mem_append.mp hx with hx | hx
    · exact ((List.pairwise_append.mp hs).2.2 x hx last (by simp)).le
    · rw [List.mem_singleton.mp hx]
  have heq : x.number = last.number := by
    have hlt := hall last hmem
    omega
  obtain rfl := hs.eq hx hmem heq
  rw [hlast] at hparent
  simpa [hxb] using hparent

/-- A block that fits keeps the index consistent. -/
lemma Index.Consistent.applyBlock (hs : state.Consistent isAddress chainId)
    (hfit : Fits Block.number state.blocks block) (h : applyBlock isAddress chainId state block = .ok next) :
    next.Consistent isAddress chainId ∧ next.blocks = revise Block.number Block.tag state.blocks block := by
  rcases applyBlock_cases hs hfit h with ⟨hholds, rfl⟩ | ⟨hnot, left, hleft, hred, hparent, activity, hact, rfl⟩
  · exact ⟨hs, (Revise.revise_of_holds hholds).symm⟩
  · have hrevise : left.blocks ++ [block] = revise Block.number Block.tag state.blocks block := by
      rw [Revise.revise_of_not_holds hnot, hleft]
    have hasc : Ascending Block.number left.blocks := hleft ▸ hs.ascending.filter _
    have hall : ∀ y ∈ left.blocks, y.number < block.number := fun y hy =>
      (Revise.mem_below.mp (hleft ▸ hy)).2
    have hold : ∀ y ∈ left.blocks, y ∈ state.blocks := fun y hy => (Revise.mem_below.mp (hleft ▸ hy)).1
    refine ⟨⟨?_, ?_, hred.append hact⟩, hrevise⟩
    · exact List.pairwise_append.mpr ⟨hasc, List.pairwise_singleton _ _,
        fun x hx y hy => List.mem_singleton.mp hy ▸ hall x hx⟩
    · intro x hx y hy hxy
      rcases List.mem_append.mp hx with hx | hx <;> rcases List.mem_append.mp hy with hy | hy
      · exact hs.linked x (hold x hx) y (hold y hy) hxy
      · rw [List.mem_singleton.mp hy] at hxy ⊢
        exact parent_of_agrees hasc hparent hx hall hxy
      · rw [List.mem_singleton.mp hx] at hxy
        have hlt := hall y hy
        omega
      · rw [List.mem_singleton.mp hx, List.mem_singleton.mp hy] at hxy
        omega

/-! ### Batches and runs -/

lemma byNumber_sorted : (byNumber blocks).Pairwise fun x y => x.number ≤ y.number :=
  have : Std.Total fun a b : Block => a.number ≤ b.number := ⟨fun a b => le_total a.number b.number⟩
  have : IsTrans Block fun a b => a.number ≤ b.number := ⟨fun _ _ _ => le_trans⟩
  List.pairwise_insertionSort _ _

lemma timely_byNumber :
    Revise.Timely Block.number Block.tag state.blocks (byNumber blocks) ↔
      Revise.Timely Block.number Block.tag state.blocks blocks := by
  unfold Revise.Timely byNumber
  simp only [List.mem_insertionSort]

lemma Index.Consistent.start : Index.start.Consistent isAddress chainId where
  ascending := List.Pairwise.nil
  linked := by simp [Index.start]
  reduced := rfl

/-- A batch in order, as far as it has come. -/
lemma Index.Consistent.applyBlocks {p q : List Block} (hs : state.Consistent isAddress chainId)
    (ht : Revise.Timely Block.number Block.tag state.blocks (p ++ q))
    (hsorted : (p ++ q).Pairwise fun x y => x.number ≤ y.number)
    (h : p.foldlM (Grove.applyBlock isAddress chainId) state = .ok next) :
    next.Consistent isAddress chainId ∧ next.blocks = reviseAll Block.number Block.tag state.blocks p := by
  induction p using List.reverseRecOn generalizing q next with
  | nil =>
    obtain rfl := Except.ok.inj h
    exact ⟨hs, rfl⟩
  | append_singleton p block ih =>
    rw [List.append_assoc, List.singleton_append] at ht hsorted
    obtain ⟨mid, hpre, hlast⟩ := foldlM_append_ok.mp h
    obtain ⟨last, hblock, hnil⟩ := foldlM_cons_ok.mp hlast
    obtain rfl := Except.ok.inj hnil
    obtain ⟨hmid, hblocks⟩ := ih ht hsorted hpre
    have hfit : Fits Block.number mid.blocks block := hblocks ▸ ht.fits hs.ascending hsorted
    obtain ⟨hlast, hlastBlocks⟩ := hmid.applyBlock hfit hblock
    exact ⟨hlast, by rw [hlastBlocks, hblocks, Revise.reviseAll_snoc]⟩

/-- A whole batch. -/
lemma Index.Consistent.applyIndexedBlocks (held : Option Index)
    (hs : (held.getD Index.start).Consistent isAddress chainId) (ht : Timely held blocks)
    (h : applyIndexedBlocks isAddress chainId held blocks = .ok next) :
    next.Consistent isAddress chainId ∧
      next.blocks = reviseAll Block.number Block.tag (held.getD Index.start).blocks (byNumber blocks) := by
  refine Index.Consistent.applyBlocks (q := []) hs ?_ ?_ h
  · rw [List.append_nil]
    exact timely_byNumber.mpr ht
  · rw [List.append_nil]
    exact byNumber_sorted

/-- The same batch once more: the answer is the same index, or the call throws. -/
lemma apply_again {held : Option Index} {again : Index} (hs : (held.getD Index.start).Consistent isAddress chainId)
    (ht : Timely held blocks) (h : applyIndexedBlocks isAddress chainId held blocks = .ok next)
    (hagain : applyIndexedBlocks isAddress chainId (some next) blocks = .ok again) : again = next := by
  obtain ⟨hnext, hblocks⟩ := hs.applyIndexedBlocks _ ht h
  have ht' : Timely (some next) blocks := by
    unfold Timely
    rw [← timely_byNumber, Option.getD_some, hblocks]
    exact Revise.timely_reviseAll byNumber_sorted
  obtain ⟨hcons, hblocks'⟩ := Index.Consistent.applyIndexedBlocks (some next) hnext ht' hagain
  refine hcons.reduced.eq hnext.reduced ?_
  rw [hblocks', Option.getD_some, hblocks, Revise.reviseAll_reviseAll byNumber_sorted hs.ascending]

/-- What a caller holds along a run of timely calls. -/
lemma consistent_of_run {held : Option Index} {tr : List (List Block × Except Fail Index)}
    (hrun : Run (Restrict (ofFun (call isAddress chainId)) fun held e => Timely held e.1) none tr held) :
    (held.getD Index.start).Consistent isAddress chainId := by
  refine hrun.invariant_state (I := fun held => (held.getD Index.start).Consistent isAddress chainId)
    Index.Consistent.start ?_
  rintro held ⟨blocks, answer⟩ held' hs ⟨ht, hstep⟩
  simp only [ofFun, call] at hstep ht
  split at hstep
  · next next hok =>
    obtain ⟨rfl, -⟩ := Prod.mk.inj hstep
    exact (hs.applyIndexedBlocks _ ht hok).1
  · obtain ⟨rfl, -⟩ := Prod.mk.inj hstep
    exact hs

/-- **The index of blocks.** After any calls that bring no late lower block, and one more such call: an index it
returns is consistent and taking the batch in again changes nothing; a call that throws changes nothing either. -/
theorem index_consistent {held : Option Index} {tr : List (List Block × Except Fail Index)}
    (hrun : Run (Restrict (ofFun (call isAddress chainId)) fun held e => Timely held e.1) none tr held)
    (ht : Timely held blocks) :
    (∀ next, applyIndexedBlocks isAddress chainId held blocks = .ok next →
        next.Consistent isAddress chainId ∧ (call isAddress chainId (some next) blocks).1 = some next) ∧
      ∀ why, applyIndexedBlocks isAddress chainId held blocks = .error why →
        (call isAddress chainId held blocks).1 = held := by
  have hs := consistent_of_run hrun
  constructor
  · intro next hok
    refine ⟨(hs.applyIndexedBlocks _ ht hok).1, ?_⟩
    unfold call
    split
    · next again hagain => rw [apply_again hs ht hok hagain]
    · rfl
  · intro why herr
    unfold call
    rw [herr]

/-- A hash that is sixty-four times one digit. -/
def hashOf (digit : Char) : String := String.ofList ('0' :: 'x' :: List.replicate 64 digit)

def blockOf (number : ℤ) (digit parent : Char) : Block := ⟨number, hashOf digit, some (hashOf parent), some []⟩

lemma step_ten : ofFun (call (fun _ => true) 1) none
    ([blockOf 10 'a' '9'], .ok ⟨[blockOf 10 'a' '9'], some Activity.start⟩)
    (some ⟨[blockOf 10 'a' '9'], some Activity.start⟩) := by
  rfl

theorem index_consistent_gap :
    (∀ next, applyIndexedBlocks (fun _ => true) 1 (some ⟨[blockOf 10 'a' '9'], some Activity.start⟩)
        [blockOf 12 'c' 'b'] = .ok next →
      next.Consistent (fun _ => true) 1 ∧
        (call (fun _ => true) 1 (some next) [blockOf 12 'c' 'b']).1 = some next) ∧
    applyIndexedBlocks (fun _ => true) 1 (some ⟨[blockOf 10 'a' '9'], some Activity.start⟩) [blockOf 12 'c' 'b'] =
      .ok ⟨[blockOf 10 'a' '9', blockOf 12 'c' 'b'], some Activity.start⟩ := by
  have hten : Timely none [blockOf 10 'a' '9'] := by
    intro b hb
    exact .inl (.inr fun x hx => by cases hx)
  have htwelve : Timely (some ⟨[blockOf 10 'a' '9'], some Activity.start⟩) [blockOf 12 'c' 'b'] := by
    intro b hb
    obtain rfl := List.mem_singleton.mp hb
    refine .inl (.inr fun x hx => ?_)
    obtain rfl := List.mem_singleton.mp hx
    decide
  exact ⟨(index_consistent (Run.single ⟨hten, step_ten⟩) htwelve).1, rfl⟩

/-- A late lower block ends up after the higher one. -/
theorem index_not_ascending :
    ∃ tr state, Run (ofFun (call (fun _ => true) 1)) none tr (some state) ∧
      ¬ state.blocks.Pairwise fun x y => x.number < y.number := by
  refine ⟨_, ⟨[blockOf 10 'a' '9', blockOf 5 '5' '4'], some Activity.start⟩,
    (Run.single step_ten).snoc
      (e := ([blockOf 5 '5' '4'], .ok ⟨[blockOf 10 'a' '9', blockOf 5 '5' '4'], some Activity.start⟩)) ?_, ?_⟩
  · rfl
  · decide

end ShadeTree.Grove
