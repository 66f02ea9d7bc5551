import Mathlib.Algebra.Order.Ring.Nat
import Mathlib.Logic.Function.Basic
import Mathlib.Tactic.Common
import ShadeTree.Lib.Run

/-!
# The slot allocators on one state file

`client/slot-state.mjs`, `rust/shade-tree-client/src/slotcursor.rs` and
`rust/shade-tree-egress/src/slot.rs` take the next slot of an epoch from one state file: create the lock
directory, load the file, advance it, replace it durably, remove the lock, return.  The three differ in
the numbers they take, in what they accept as a state, and in how they replace the file.

Processes interleave at each file operation.  A process may crash anywhere, a power loss ends all of them
and may keep or lose what was not yet synced, each operation may fail, and an operator may remove the lock
when no process holds it.  A content stands for the text of the file: a text denotes a record, and says
which language accepts it (`1e3` is a number to JavaScript only, an epoch from 2^53 on to Rust only).  The
text is compared by what it denotes, a waiting process may give up at any time the lock is there, and the
return of a call is its removal of the lock.
-/

namespace ShadeTree.Slots

open ShadeTree.Lib

/-- A state `{ "version": 1, "epoch": .., "nextSlot": .. }`. -/
structure Record where
  epoch : ℕ
  nextSlot : ℕ
  deriving DecidableEq, Repr

/-- The state file. -/
inductive Content where
  | missing
  | garbage
  | text (r : Record) (js rust : Bool)
  deriving DecidableEq, Repr

/-- What `saveState` and `save` write. -/
def Content.written (r : Record) : Content :=
  .text r (decide (r.epoch < 2 ^ 53) && decide (r.nextSlot < 2 ^ 53)) true

inductive Platform where
  | unix | windows | other
  deriving DecidableEq, Repr

inductive Lang where
  | js | rust
  deriving DecidableEq, Repr

/-- What an allocator takes and how it saves: over a temporary file and a rename or directly, and whether
it syncs the parent directory after the rename. -/
structure Program where
  lang : Lang
  maxEpoch : ℕ
  maxLimit : ℕ
  direct : Bool
  syncsParent : Bool
  deriving DecidableEq, Repr

/-- `allocatePersistentSlot` of `client/slot-state.mjs`. -/
def allocatePersistentSlot (on : Platform) : Program :=
  ⟨.js, 2 ^ 53 - 1, 2 ^ 53 - 1, false, on != .windows⟩

/-- `allocate_with_timeout` of `slotcursor.rs`. -/
def allocateWithTimeout (on : Platform) : Program :=
  ⟨.rust, 2 ^ 64 - 1, 65535, on != .unix, on == .unix⟩

/-- `allocate` of the egress. -/
def egressAllocate (on : Platform) : Program :=
  ⟨.rust, 2 ^ 64 - 1, 65535, on == .other, on == .unix⟩

def programs (on : Platform) : List Program :=
  [allocatePersistentSlot on, allocateWithTimeout on, egressAllocate on]

inductive AllocError where
  | unavailable
  | locked
  | corrupt
  | epochRollback (saved current : ℕ)
  | invalid
  deriving DecidableEq, Repr

/-- The check of the arguments. -/
def Program.valid (g : Program) (k epoch : ℕ) : Prop := epoch ≤ g.maxEpoch ∧ 1 ≤ k ∧ k ≤ g.maxLimit

/-- The language of the allocator accepts the text. -/
def Program.accepts (g : Program) (js rust : Bool) : Bool :=
  match g.lang with
  | .js => js
  | .rust => rust

/-- `loadState`, `load`. -/
def load (g : Program) : Content → Except AllocError (Option Record)
  | .missing => .ok none
  | .garbage => .error .corrupt
  | .text r js rust =>
    if g.accepts js rust then .ok (some r) else .error .corrupt

/-- The next slot of an epoch after a saved state: a new epoch starts over. -/
def cursor (epoch : ℕ) (saved : Option Record) : ℕ :=
  match saved with
  | some r => if r.epoch = epoch then r.nextSlot else 0
  | none => 0

/-- The slot a call takes, `none` when the epoch is exhausted. -/
def advance (k epoch : ℕ) (saved : Option Record) : Except AllocError (Option ℕ) :=
  match saved.bind fun r => if epoch < r.epoch then some r.epoch else none with
  | some savedEpoch => .error (.epochRollback savedEpoch epoch)
  | none =>
    if k < cursor epoch saved then .error .corrupt
    else if cursor epoch saved = k then .ok none
    else .ok (some (cursor epoch saved))

/-- How a call ends; `burnt` is the slot a failed call had taken. -/
inductive Outcome where
  | returned (epoch slot : ℕ)
  | exhausted (epoch : ℕ)
  | failed (e : AllocError) (burnt : Option (ℕ × ℕ))
  deriving DecidableEq, Repr

/-- Where a process is in a call. -/
inductive Pc where
  | idle
  | waiting (g : Program) (epoch : ℕ)
  | locked (g : Program) (epoch : ℕ)
  | saving (g : Program) (epoch slot : ℕ)
  | truncated (g : Program) (epoch slot : ℕ)
  | replaced (g : Program) (epoch slot : ℕ)
  | closing (o : Outcome)
  deriving DecidableEq, Repr

/-- The process holds the lock. -/
def Pc.holds : Pc → Bool
  | .idle => false
  | .waiting _ _ => false
  | _ => true

/-- The slot that the process took from the file and has not handed out. -/
def Pc.burnt : Pc → Option (ℕ × ℕ)
  | .truncated _ e n => some (e, n)
  | .replaced _ e n => some (e, n)
  | .closing (.returned e n) => some (e, n)
  | .closing (.failed _ b) => b
  | _ => none

/-- What a process does after it loaded the file. -/
def afterLoad (k : ℕ) (g : Program) (epoch : ℕ) (c : Content) : Pc :=
  match (load g c).bind (advance k epoch) with
  | .error e => .closing (.failed e none)
  | .ok none => .closing (.exhausted epoch)
  | .ok (some slot) => .saving g epoch slot

/-- The file as processes see it and as a power loss would leave it, the lock, and the processes. -/
structure System (P : Type) where
  file : Content
  disk : Content
  lock : Bool
  pc : P → Pc

/-- What a step shows. -/
inductive Label (P : Type) where
  | called (p : P) (g : Program) (epoch : ℕ)
  | internal (p : P)
  | returned (p : P) (epoch slot : ℕ)
  | exhausted (p : P) (epoch : ℕ)
  | failed (p : P) (e : AllocError) (burnt : Option (ℕ × ℕ))
  | crashed (p : P) (burnt : Option (ℕ × ℕ))
  | powerLoss (pcs : P → Pc)
  | cleared

section Steps

variable {P : Type} [DecidableEq P]

/-- The system after the process `p` moved to `c`. -/
def System.move (s : System P) (p : P) (c : Pc) : System P := { s with pc := Function.update s.pc p c }

/-- The label of a call that ends. -/
def Outcome.label (p : P) : Outcome → Label P
  | .returned e n => .returned p e n
  | .exhausted e => .exhausted p e
  | .failed e b => .failed p e b

/-- The slot that an outcome gives up if the lock cannot be removed. -/
def Outcome.burnt (o : Outcome) : Option (ℕ × ℕ) := (Pc.closing o).burnt

variable (on : Platform) (k : ℕ)

/-- One operation of one process, or one event from outside. -/
inductive AllocStep : System P → Label P → System P → Prop where
  | call {s : System P} {p : P} {g : Program} {e : ℕ} :
      s.pc p = .idle → g ∈ programs on → g.valid k e → AllocStep s (.called p g e) (s.move p (.waiting g e))
  | invalid {s : System P} {p : P} {g : Program} {e : ℕ} :
      s.pc p = .idle → g ∈ programs on → ¬ g.valid k e → AllocStep s (.failed p .invalid none) s
  | acquire {s : System P} {p : P} {g : Program} {e : ℕ} :
      s.pc p = .waiting g e → s.lock = false →
      AllocStep s (.internal p) { s.move p (.locked g e) with lock := true }
  | timeout {s : System P} {p : P} {g : Program} {e : ℕ} :
      s.pc p = .waiting g e → s.lock = true → AllocStep s (.failed p .locked none) (s.move p .idle)
  | lockFails {s : System P} {p : P} {g : Program} {e : ℕ} :
      s.pc p = .waiting g e → AllocStep s (.failed p .unavailable none) (s.move p .idle)
  | load {s : System P} {p : P} {g : Program} {e : ℕ} :
      s.pc p = .locked g e → AllocStep s (.internal p) (s.move p (afterLoad k g e s.file))
  | readFails {s : System P} {p : P} {g : Program} {e : ℕ} :
      s.pc p = .locked g e → AllocStep s (.internal p) (s.move p (.closing (.failed .unavailable none)))
  | rename {s : System P} {p : P} {g : Program} {e n : ℕ} :
      s.pc p = .saving g e n → g.direct = false →
      AllocStep s (.internal p)
        { s.move p (.replaced g e n) with
            file := .written ⟨e, n + 1⟩
            disk := if g.syncsParent then s.disk else .written ⟨e, n + 1⟩ }
  | truncate {s : System P} {p : P} {g : Program} {e n : ℕ} :
      s.pc p = .saving g e n → g.direct = true →
      AllocStep s (.internal p) { s.move p (.truncated g e n) with file := .garbage }
  | saveFails {s : System P} {p : P} {g : Program} {e n : ℕ} :
      s.pc p = .saving g e n → AllocStep s (.internal p) (s.move p (.closing (.failed .unavailable none)))
  | write {s : System P} {p : P} {g : Program} {e n : ℕ} :
      s.pc p = .truncated g e n →
      AllocStep s (.internal p) { s.move p (.replaced g e n) with file := .written ⟨e, n + 1⟩ }
  | writeFails {s : System P} {p : P} {g : Program} {e n : ℕ} :
      s.pc p = .truncated g e n →
      AllocStep s (.internal p) (s.move p (.closing (.failed .unavailable (some (e, n)))))
  | sync {s : System P} {p : P} {g : Program} {e n : ℕ} :
      s.pc p = .replaced g e n →
      AllocStep s (.internal p) { s.move p (.closing (.returned e n)) with disk := s.file }
  | syncFails {s : System P} {p : P} {g : Program} {e n : ℕ} {disk : Content} :
      s.pc p = .replaced g e n → (disk = s.disk ∨ disk = s.file) →
      AllocStep s (.internal p)
        { s.move p (.closing (.failed .unavailable (some (e, n)))) with disk := disk }
  | release {s : System P} {p : P} {o : Outcome} :
      s.pc p = .closing o → AllocStep s (o.label p) { s.move p .idle with lock := false }
  | releaseFails {s : System P} {p : P} {o : Outcome} {lock : Bool} :
      s.pc p = .closing o → AllocStep s (.failed p .unavailable o.burnt) { s.move p .idle with lock := lock }
  | crash {s : System P} {p : P} :
      s.pc p ≠ .idle → AllocStep s (.crashed p (s.pc p).burnt) (s.move p .idle)
  | powerLoss {s : System P} {disk : Content} {lock : Bool} :
      (disk = s.disk ∨ disk = s.file ∨
        (disk = .garbage ∧ s.file ≠ s.disk ∧ ∃ g ∈ programs on, g.direct = true)) →
      AllocStep s (.powerLoss s.pc) ⟨disk, disk, lock, fun _ => .idle⟩
  | clearLock {s : System P} :
      (∀ p, (s.pc p).holds = false) → AllocStep s .cleared { s with lock := false }

/-- A start: any file, a lock that may be left over, and no call under way. -/
def System.initial (file : Content) (lock : Bool) : System P := ⟨file, file, lock, fun _ => .idle⟩

end Steps

end ShadeTree.Slots
