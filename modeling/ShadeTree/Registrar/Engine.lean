import Mathlib.Data.Finset.Insert
import Mathlib.Data.Finset.Card
import Mathlib.Logic.Function.Basic
import ShadeTree.Lib.Run
import ShadeTree.Registrar.Chain

/-!
# The settlement engine of the registrar (`payments/registrar.mjs`)

`verifyAndSettle` calls and the `recover` of a boot, suspended at each `await`.  Order objects live on a heap
and are shared by reference: the store maps an authorization to an object, and a call keeps the object it
found or made.  `store.put` writes the file with the present fields of all stored objects; the write may fail
and then goes unnoticed.  A broadcast and the answer to it are two steps, and the answer may get lost.

The node may fail any request, and answer a receipt late or as not final.  An order carries what the engine
reads and reports; its meta data, its error text and the settlement block are left out.  `main` listens only
after `recover` returned.
-/

namespace ShadeTree.Registrar

open Function (update)
open ShadeTree.Contracts

/-! ### Orders -/

inductive OrderState where
  | settling | settled | inserting | inserted | failed
  deriving DecidableEq, Repr

/-- An order object; `state` is unset before the first `store.put`. -/
structure Order where
  commitment : ℕ
  limit : ℕ
  state : Option OrderState
  settleTx : Option ℕ
  insertTx : Option ℕ
  leafIndex : Option ℕ
  root : Option ℕ
  deriving DecidableEq, Repr

namespace Order

def new (commitment limit : ℕ) : Order := ⟨commitment, limit, none, none, none, none, none⟩

/-- The hash a broadcast is recorded under. -/
def hash (o : Order) : Kind → Option ℕ
  | .settle => o.settleTx
  | .insert => o.insertTx

/-- The transaction that `reconcilePending` asks for. -/
def pending (o : Order) : Option (Kind × ℕ) :=
  match o.state with
  | some .settling => o.settleTx.map (.settle, ·)
  | some .inserting => o.insertTx.map (.insert, ·)
  | _ => none

/-- After the broadcast was answered with the hash `h`. -/
def sent (o : Order) (h : ℕ) : Kind → Order
  | .settle => { o with settleTx := some h, state := some .settling }
  | .insert => { o with insertTx := some h, state := some .inserting }

/-- The first `Inserted` log of the commitment: the leaf index and the root. -/
def event (commitment : ℕ) (logs : List Paid.Event) : Option (ℕ × ℕ) :=
  logs.findSome? fun
    | .Inserted c _ index root => if c = commitment then some (index, root) else none
    | _ => none

/-- After a receipt, in `settle`, `finishInsert` and `reconcilePending`.  The fallback reads of the index and
the root are not modelled: an insert that succeeded has its log. -/
def finish (o : Order) : Kind → Receipt → Order
  | .settle, .ok _ => { o with state := some .settled }
  | .settle, .reverted => { o with state := some .failed }
  | .insert, .ok logs =>
    { o with
        state := some .inserted
        leafIndex := (event o.commitment logs).map Prod.fst
        root := (event o.commitment logs).map Prod.snd }
  | .insert, .reverted => { o with state := some .settled }

/-- The `catch` after `settle` or `insertLeaf`. -/
def caught (o : Order) : Kind → Order
  | .settle => { o with state := if o.settleTx.isSome then o.state else some .failed }
  | .insert => o

end Order

/-! ### Requests and answers -/

/-- The arguments of `verifyAndSettle`; `key` is the authorization `(asset, from, nonce)` and `signed` says
that the signature recovers to `from`. -/
structure Request (K : Type) where
  key : K
  commitment : ℕ
  limit : ℕ
  value : ℕ
  validAfter : ℕ
  validBefore : ℕ
  signed : Bool
  deriving DecidableEq, Repr

inductive Reason where
  | badCommitment | unknownLimit | nonceUsed | inProgress | rpcError | insertFailed | busy | notYetValid
  | expired | badSignature | insufficientFunds | alreadyMember | settleFailed
  deriving DecidableEq, Repr

/-- A reference to an order object: the authorization and a number. -/
abbrev Ref (K : Type) := K × ℕ

inductive Answer (K : Type) where
  | ok (replayed : Bool) (order : Ref K)
  | fail (status : ℕ) (reason : Reason)
  deriving DecidableEq, Repr

/-- The offer and the limits of the engine. -/
structure Config extends Network where
  priceOf : ℕ → Option ℕ
  settleBufferSec : ℕ
  maxInflight : ℕ

def FIELD_P : ℕ := 21888242871839275222246405745257275088548364400416034343698204186575808495617

def isCommitment (c : ℕ) : Prop := c < FIELD_P

instance : DecidablePred isCommitment := fun c => inferInstanceAs (Decidable (c < FIELD_P))

section Engine

variable {K : Type}

/-- The time window and the signature. -/
def verify (cfg : Config) (now : ℕ) (req : Request K) : Option (Answer K) :=
  if now < req.validAfter then some (.fail 402 .notYetValid)
  else if req.validBefore ≤ now + cfg.settleBufferSec then some (.fail 402 .expired)
  else if !req.signed then some (.fail 402 .badSignature)
  else none

/-- The checks of the three chain reads. -/
def refusal (used funded : Bool) (active : ℕ) : Option (Answer K) :=
  if used then some (.fail 402 .nonceUsed)
  else if !funded then some (.fail 402 .insufficientFunds)
  else if active ≠ 0 then some (.fail 409 .alreadyMember)
  else none

/-- What a call answers after `settle` or `insertLeaf` threw. -/
def failure : Kind → Bool → Answer K
  | _, true => .fail 503 .inProgress
  | .settle, false => .fail 402 .settleFailed
  | .insert, false => .fail 502 .insertFailed

/-- Where a call is suspended. -/
inductive Pc (K : Type) where
  /-- at the receipt (and its depth) of a pending transaction -/
  | reconciling (r : Ref K) (j : Kind) (h : ℕ)
  | reconciled (r : Ref K)
  /-- at the three chain reads, with what the node answered so far -/
  | checking (existing : Option (Ref K)) (used : Option Bool) (active : Option ℕ)
  | locking (r : Ref K) (j : Kind)
  | simulating (r : Ref K) (j : Kind)
  | sending (r : Ref K) (j : Kind)
  /-- broadcast as `h`, the answer is on its way -/
  | sent (r : Ref K) (j : Kind) (h : ℕ)
  | waiting (r : Ref K) (j : Kind) (h : ℕ)
  /-- at `limitOf` in `insertLeaf` -/
  | probing (r : Ref K) (limit : Option ℕ)
  /-- at `currentRoot` in `insertLeaf`, when the leaf was there -/
  | rooting (r : Ref K)
  | throwing (r : Ref K) (j : Kind) (timedOut : Bool)
  /-- about to leave, with the key still in flight -/
  | closing (r : Ref K) (a : Answer K)
  /-- `recover`, between two orders -/
  | looping
  deriving DecidableEq, Repr

inductive Task (K : Type) where
  | post (req : Request K) (replayed : Bool)
  | recover (todo : List (Ref K))
  deriving DecidableEq, Repr

structure Call (K : Type) where
  task : Task K
  pc : Pc K
  deriving DecidableEq, Repr

/-- What follows a complete `insertLeaf`. -/
def Task.done (r : Ref K) : Task K → Pc K
  | .post _ replayed => .closing r (.ok replayed r)
  | .recover _ => .looping

/-- What follows the receipt of a transaction. -/
def Task.afterWait (task : Task K) (r : Ref K) : Kind → Receipt → Pc K
  | .settle, .ok _ => .probing r none
  | .insert, .ok _ => task.done r
  | j, .reverted => .throwing r j false

/-- What `recover` does with an order, before and after it reconciled it. -/
def Order.resume (o : Order) (r : Ref K) : Pc K :=
  if o.state = some .settled then .probing r none else .looping

def Order.entry (o : Order) (r : Ref K) : Pc K :=
  match o.pending with
  | some (j, h) => .reconciling r j h
  | none => o.resume r

/-! ### The process -/

/-- The chain; the memory of the process, with `ready` once it listens; the file. -/
structure System (K T : Type) where
  chain : Chain K
  heap : Ref K → Option Order
  orders : K → Option ℕ
  file : K → Option Order
  inflight : Finset K
  lock : Option T
  call : T → Option (Call K)
  ready : Bool

/-- What a step shows. -/
inductive Label (K T : Type) where
  | called (t : T) (req : Request K)
  | resumed (t : T) (req : Request K) (r : Ref K)
  | acted (t : T) (r : Ref K) (new : Bool) (commitment limit : ℕ)
  | reconciled (t : T) (r : Ref K) (j : Kind) (h : ℕ)
  | answered (t : T) (req : Request K) (a : Answer K)
  | step (t : T)
  | fault (t : T)
  | lost (t : T) (j : Kind)
  | ready (t : T)
  | restarted (t : T)
  | chain (e : ChainEvent K)

/-- What a call does next, after a synchronous part. -/
inductive Next (K : Type) where
  | answer (a : Answer K)
  | reconcile (r : Ref K) (j : Kind) (h : ℕ)
  | resume (r : Ref K)
  | check (existing : Option (Ref K))

namespace System

variable {T : Type}

/-- `store.get`. -/
def stored (s : System K T) (k : K) : Option Order := (s.orders k).bind fun n => s.heap (k, n)

/-- The object is in no use. -/
def Fresh (s : System K T) (r : Ref K) : Prop := s.heap r = none ∧ s.orders r.1 ≠ some r.2

variable [DecidableEq K] [DecidableEq T]

/-- The fields of an order object change. -/
def setOrder (s : System K T) (r : Ref K) (o : Order) : System K T := { s with heap := update s.heap r (some o) }

/-- `store.put`; `written` says whether the file was replaced. -/
def put (s : System K T) (r : Ref K) (o : Order) (written : Bool) : System K T :=
  let s' := { s.setOrder r o with orders := update s.orders r.1 (some r.2) }
  { s' with file := if written then s'.stored else s.file }

def setCall (s : System K T) (t : T) (c : Option (Call K)) : System K T := { s with call := update s.call t c }

def setLock (s : System K T) (lock : Option T) : System K T := { s with lock := lock }

def setChain (s : System K T) (c : Chain K) : System K T := { s with chain := c }

def enter (s : System K T) (k : K) : System K T := { s with inflight := insert k s.inflight }

def leave (s : System K T) (k : K) : System K T := { s with inflight := s.inflight.erase k }

def listen (s : System K T) : System K T := { s with ready := true }

/-- The process stops and starts again: the memory is what the file holds, and `recover` begins. -/
def restart (s : System K T) (t : T) (todo : List K) : System K T :=
  { s with
      heap := fun r => if r.2 = 0 then s.file r.1 else none
      orders := fun k => (s.file k).map fun _ => 0
      inflight := ∅
      lock := none
      call := update (fun _ => none) t (some ⟨.recover (todo.map fun k => (k, 0)), .looping⟩)
      ready := false }

end System

variable {T : Type} [DecidableEq K] [DecidableEq T]

section Calls

variable (cfg : Config) (s : System K T) (now : ℕ) (req : Request K)

/-- From the bound on the calls in flight on. -/
def admission (existing : Option (Ref K)) : Next K :=
  if cfg.maxInflight ≤ s.inflight.card then .answer (.fail 503 .busy)
  else
    match verify cfg now req with
    | some a => .answer a
    | none => .check existing

/-- From where a stored order is not left pending. -/
def proceed (r : Ref K) (o : Order) : Next K :=
  match o.state with
  | some .settling => .answer (.fail 503 .inProgress)
  | some .inserting => .answer (.fail 503 .inProgress)
  | some .inserted => .answer (.ok true r)
  | some .settled => .resume r
  | _ => admission cfg s now req (some r)

/-- The start of `verifyAndSettle`, up to its first `await`. -/
def begin : Next K :=
  if ¬ isCommitment req.commitment then .answer (.fail 400 .badCommitment)
  else if (cfg.priceOf req.limit).isNone then .answer (.fail 400 .unknownLimit)
  else
    match s.orders req.key, s.stored req.key with
    | some n, some o =>
      if ¬ (o.commitment = req.commitment ∧ o.limit = req.limit) then .answer (.fail 409 .nonceUsed)
      else if req.key ∈ s.inflight then .answer (.fail 409 .inProgress)
      else
        match o.pending with
        | some (j, h) => .reconcile (req.key, n) j h
        | none => proceed cfg s now req (req.key, n) o
    | _, _ => admission cfg s now req none

end Calls

/-- The state after the synchronous part. -/
def Next.apply (s : System K T) (t : T) (req : Request K) : Next K → System K T
  | .answer _ => s.setCall t none
  | .reconcile r j h => s.setCall t (some ⟨.post req false, .reconciling r j h⟩)
  | .resume r => (s.enter r.1).setCall t (some ⟨.post req true, .probing r none⟩)
  | .check existing => s.setCall t (some ⟨.post req false, .checking existing none none⟩)

def Next.label (t : T) (req : Request K) : Next K → Label K T
  | .answer a => .answered t req a
  | .reconcile _ _ _ => .called t req
  | .resume r => .resumed t req r
  | .check _ => .called t req

/-- The transaction that a call is about to send for an order. -/
def Order.job (o : Order) (k : K) (j : Kind) : Job K := ⟨j, k, o.commitment, o.limit⟩

/-- A suspension ends and no order changes; the last argument is the operator's lock afterwards. -/
inductive Moves (cfg : Config) (s : System K T) (t : T) : Call K → Label K T → Call K → Option T → Prop where
  | receiptLate {task : Task K} {r : Ref K} {j : Kind} {h : ℕ} :
      Moves cfg s t ⟨task, .reconciling r j h⟩ (.fault t) ⟨task, .reconciled r⟩ s.lock
  | receiptFails {todo : List (Ref K)} {r : Ref K} {j : Kind} {h : ℕ} :
      Moves cfg s t ⟨.recover todo, .reconciling r j h⟩ (.fault t) ⟨.recover todo, .looping⟩ s.lock
  | next {r : Ref K} {todo : List (Ref K)} {o : Order} :
      s.heap r = some o →
      Moves cfg s t ⟨.recover (r :: todo), .looping⟩ (.step t) ⟨.recover todo, o.entry r⟩ s.lock
  | again {todo : List (Ref K)} {r : Ref K} {o : Order} :
      s.heap r = some o →
      Moves cfg s t ⟨.recover todo, .reconciled r⟩ (.step t) ⟨.recover todo, o.resume r⟩ s.lock
  | readUsed {req : Request K} {rep : Bool} {e : Option (Ref K)} {a : Option ℕ} :
      Moves cfg s t ⟨.post req rep, .checking e none a⟩ (.step t)
        ⟨.post req rep, .checking e (some (s.chain.used req.key)) a⟩ s.lock
  | readActive {req : Request K} {rep : Bool} {e : Option (Ref K)} {u : Option Bool} :
      Moves cfg s t ⟨.post req rep, .checking e u none⟩ (.step t)
        ⟨.post req rep, .checking e u (some (s.chain.limitOf req.commitment))⟩ s.lock
  | acquire {task : Task K} {r : Ref K} {j : Kind} :
      s.lock = none → Moves cfg s t ⟨task, .locking r j⟩ (.step t) ⟨task, .simulating r j⟩ (some t)
  | simulated {task : Task K} {r : Ref K} {j : Kind} {o : Order} :
      s.heap r = some o → (s.chain.exec cfg.toNetwork (o.job r.1 j)).isSome →
      Moves cfg s t ⟨task, .simulating r j⟩ (.step t) ⟨task, .sending r j⟩ s.lock
  | refused {task : Task K} {r : Ref K} {j : Kind} {o : Order} :
      s.heap r = some o → s.chain.exec cfg.toNetwork (o.job r.1 j) = none →
      Moves cfg s t ⟨task, .simulating r j⟩ (.step t) ⟨task, .throwing r j false⟩ none
  | staticFails {task : Task K} {r : Ref K} {j : Kind} :
      Moves cfg s t ⟨task, .simulating r j⟩ (.fault t) ⟨task, .throwing r j false⟩ none
  | sendFails {task : Task K} {r : Ref K} {j : Kind} :
      Moves cfg s t ⟨task, .sending r j⟩ (.fault t) ⟨task, .throwing r j false⟩ none
  | lost {task : Task K} {r : Ref K} {j : Kind} {h : ℕ} :
      Moves cfg s t ⟨task, .sent r j h⟩ (.lost t j) ⟨task, .throwing r j false⟩ none
  | waitFails {task : Task K} {r : Ref K} {j : Kind} {h : ℕ} {timedOut : Bool} :
      Moves cfg s t ⟨task, .waiting r j h⟩ (.fault t) ⟨task, .throwing r j timedOut⟩ s.lock
  | readLimit {task : Task K} {r : Ref K} {o : Order} :
      s.heap r = some o →
      Moves cfg s t ⟨task, .probing r none⟩ (.step t)
        ⟨task, .probing r (some (s.chain.limitOf o.commitment))⟩ s.lock
  | absent {task : Task K} {r : Ref K} :
      Moves cfg s t ⟨task, .probing r (some 0)⟩ (.step t) ⟨task, .locking r .insert⟩ s.lock
  | probeFails {task : Task K} {r : Ref K} :
      Moves cfg s t ⟨task, .probing r none⟩ (.fault t) ⟨task, .throwing r .insert false⟩ s.lock
  | rootFails {task : Task K} {r : Ref K} :
      Moves cfg s t ⟨task, .rooting r⟩ (.fault t) ⟨task, .throwing r .insert false⟩ s.lock
  | caught {todo : List (Ref K)} {r : Ref K} {j : Kind} {timedOut : Bool} :
      Moves cfg s t ⟨.recover todo, .throwing r j timedOut⟩ (.step t) ⟨.recover todo, .looping⟩ s.lock

/-- A suspension ends and the order `o` is put into the store as the last but one argument. -/
inductive Puts (s : System K T) (t : T) (r : Ref K) (o : Order) :
    Call K → Label K T → Call K → Order → Option T → Prop where
  | reconciled {task : Task K} {j : Kind} {h : ℕ} {rc : Receipt} :
      s.chain.receipt h = some rc →
      Puts s t r o ⟨task, .reconciling r j h⟩ (.reconciled t r j h) ⟨task, .reconciled r⟩ (o.finish j rc) s.lock
  | recorded {task : Task K} {j : Kind} {h : ℕ} :
      Puts s t r o ⟨task, .sent r j h⟩ (.step t) ⟨task, .waiting r j h⟩ (o.sent h j) none
  | confirmed {task : Task K} {j : Kind} {h : ℕ} {rc : Receipt} :
      s.chain.receipt h = some rc →
      Puts s t r o ⟨task, .waiting r j h⟩ (.step t) ⟨task, task.afterWait r j rc⟩ (o.finish j rc) s.lock
  | rooted {task : Task K} :
      Puts s t r o ⟨task, .rooting r⟩ (.step t) ⟨task, task.done r⟩
        { o with root := some s.chain.set.tree.currentRoot } s.lock
  | caught {req : Request K} {rep : Bool} {j : Kind} {timedOut : Bool} :
      Puts s t r o ⟨.post req rep, .throwing r j timedOut⟩ (.step t)
        ⟨.post req rep, .closing r (failure j timedOut)⟩ (o.caught j) s.lock

/-- A call that added no key to the ones in flight returns. -/
inductive Exits : Call K → Request K → Answer K → Prop where
  | receiptFails {req : Request K} {rep : Bool} {r : Ref K} {j : Kind} {h : ℕ} :
      Exits ⟨.post req rep, .reconciling r j h⟩ req (.fail 502 .rpcError)
  | readFails {req : Request K} {rep : Bool} {e : Option (Ref K)} {u : Option Bool} {a : Option ℕ} :
      Exits ⟨.post req rep, .checking e u a⟩ req (.fail 502 .rpcError)
  | refused {req : Request K} {rep : Bool} {e : Option (Ref K)} {u funded : Bool} {a : ℕ} {ans : Answer K} :
      refusal u funded a = some ans → Exits ⟨.post req rep, .checking e (some u) (some a)⟩ req ans

/-- One step of the process or of the chain. -/
inductive Step (cfg : Config) : System K T → Label K T → System K T → Prop where
  | call {s : System K T} (t : T) (req : Request K) (now : ℕ) :
      s.ready = true → s.call t = none →
      Step cfg s ((begin cfg s now req).label t req) ((begin cfg s now req).apply s t req)
  | proceed {s : System K T} {t : T} {req : Request K} {rep : Bool} {r : Ref K} {o : Order} (now : ℕ) :
      s.call t = some ⟨.post req rep, .reconciled r⟩ → s.heap r = some o →
      Step cfg s ((proceed cfg s now req r o).label t req) ((proceed cfg s now req r o).apply s t req)
  | exit {s : System K T} {t : T} {c : Call K} {req : Request K} {a : Answer K} :
      s.call t = some c → Exits c req a → Step cfg s (.answered t req a) (s.setCall t none)
  | act {s : System K T} {t : T} {req : Request K} {rep : Bool} {r : Ref K} :
      s.call t = some ⟨.post req rep, .checking (some r) (some false) (some 0)⟩ →
      Step cfg s (.acted t r false req.commitment req.limit)
        ((s.enter r.1).setCall t (some ⟨.post req false, .locking r .settle⟩))
  | create {s : System K T} {t : T} {req : Request K} {rep : Bool} (n : ℕ) :
      s.call t = some ⟨.post req rep, .checking none (some false) (some 0)⟩ → s.Fresh (req.key, n) →
      Step cfg s (.acted t (req.key, n) true req.commitment req.limit)
        (((s.setOrder (req.key, n) (.new req.commitment req.limit)).enter req.key).setCall t
          (some ⟨.post req false, .locking (req.key, n) .settle⟩))
  | move {s : System K T} {t : T} {c c' : Call K} {l : Label K T} {lock : Option T} :
      s.call t = some c → Moves cfg s t c l c' lock →
      Step cfg s l ((s.setCall t (some c')).setLock lock)
  | put {s : System K T} {t : T} {r : Ref K} {o o' : Order} {c c' : Call K} {l : Label K T} {lock : Option T}
        (written : Bool) :
      s.call t = some c → s.heap r = some o → Puts s t r o c l c' o' lock →
      Step cfg s l (((s.put r o' written).setCall t (some c')).setLock lock)
  | present {s : System K T} {t : T} {task : Task K} {r : Ref K} {o : Order} {limit : ℕ} :
      s.call t = some ⟨task, .probing r (some limit)⟩ → limit ≠ 0 → s.heap r = some o →
      Step cfg s (.step t)
        ((s.setOrder r { o with state := some .inserted }).setCall t (some ⟨task, .rooting r⟩))
  | broadcast {s : System K T} {t : T} {task : Task K} {r : Ref K} {j : Kind} {o : Order} (h : ℕ) :
      s.call t = some ⟨task, .sending r j⟩ → s.heap r = some o → s.chain.tx h = none →
      Step cfg s (.step t)
        ((s.setCall t (some ⟨task, .sent r j h⟩)).setChain (s.chain.put h (o.job r.1 j) none))
  | leave {s : System K T} {t : T} {req : Request K} {rep : Bool} {r : Ref K} {a : Answer K} :
      s.call t = some ⟨.post req rep, .closing r a⟩ →
      Step cfg s (.answered t req a) ((s.setCall t none).leave r.1)
  | ready {s : System K T} {t : T} :
      s.call t = some ⟨.recover [], .looping⟩ → Step cfg s (.ready t) (s.setCall t none).listen
  | chain {s : System K T} {e : ChainEvent K} {c : Chain K} :
      s.chain.Step cfg.toNetwork e c → Step cfg s (.chain e) (s.setChain c)
  | restart {s : System K T} (t : T) (todo : List K) :
      todo.Nodup → (∀ k, k ∈ todo ↔ s.file k ≠ none) → Step cfg s (.restarted t) (s.restart t todo)

/-- A first start, without a file. -/
def System.initial (c : Chain K) : System K T :=
  ⟨c, fun _ => none, fun _ => none, fun _ => none, ∅, none, fun _ => none, true⟩

end Engine

/-! ### What the operations change -/

namespace System

variable {K T : Type} {s : System K T} {r : Ref K} {o : Order} {k : K} {w : Bool}

/-- Nothing of the authorization `k` differs. -/
def SameAt (s s' : System K T) (k : K) : Prop := s'.orders k = s.orders k ∧ ∀ n, s'.heap (k, n) = s.heap (k, n)

lemma SameAt.stored {s' : System K T} (h : s.SameAt s' k) : s'.stored k = s.stored k := by
  simp only [System.stored, h.1, h.2]

lemma stored_of_orders (h : s.orders r.1 = some r.2) : s.stored r.1 = s.heap r := by
  simp [stored, h]

lemma stored_restart [DecidableEq T] {t : T} {todo : List K} : (s.restart t todo).stored k = s.file k := by
  show ((s.file k).map fun _ => 0).bind (fun n => if n = 0 then s.file k else none) = s.file k
  cases s.file k with
  | none => rfl
  | some o => rfl

/-- After a restart `recover` is the only call. -/
lemma call_restart [DecidableEq T] {t t' : T} {todo : List K} {d : Call K} (hd : (s.restart t todo).call t' = some d) :
    t' = t ∧ d = ⟨.recover (todo.map fun k => (k, 0)), .looping⟩ := by
  have hd' : update (fun _ => none) t (some ⟨.recover (todo.map fun k => (k, 0)), .looping⟩) t' = some d := hd
  by_cases ht : t' = t
  · rw [ht, Function.update_self] at hd'
    exact ⟨ht, (Option.some.inj hd').symm⟩
  · rw [Function.update_of_ne ht] at hd'
    cases hd'

variable [DecidableEq K]

lemma sameAt_setOrder (hk : k ≠ r.1) : s.SameAt (s.setOrder r o) k := by
  refine ⟨rfl, fun n => ?_⟩
  have hne : (k, n) ≠ r := fun h => hk (congrArg Prod.fst h)
  exact Function.update_of_ne hne _ _

lemma sameAt_put (hk : k ≠ r.1) : s.SameAt (s.put r o w) k :=
  ⟨Function.update_of_ne hk _ _, (sameAt_setOrder hk).2⟩

lemma heap_setOrder : (s.setOrder r o).heap r = some o := Function.update_self ..

lemma heap_put : (s.put r o w).heap r = some o := Function.update_self ..

lemma orders_put : (s.put r o w).orders r.1 = some r.2 := Function.update_self ..

lemma stored_put : (s.put r o w).stored r.1 = some o := (stored_of_orders orders_put).trans heap_put

lemma stored_setOrder (h : s.orders r.1 = some r.2) : (s.setOrder r o).stored r.1 = some o :=
  (stored_of_orders (s := s.setOrder r o) h).trans heap_setOrder

/-- An object that is not in the store may change unseen. -/
lemma stored_setOrder_of_ne (h : s.orders r.1 ≠ some r.2) : (s.setOrder r o).stored k = s.stored k := by
  by_cases hk : k = r.1
  · subst hk
    show (s.orders r.1).bind _ = (s.orders r.1).bind _
    cases ho : s.orders r.1 with
    | none => rfl
    | some n =>
      have hne : (r.1, n) ≠ r := fun h' => h (by rw [ho, ← congrArg Prod.snd h'])
      exact Function.update_of_ne hne _ _
  · exact (sameAt_setOrder hk).stored

/-- The file holds what it held, or the stored orders. -/
lemma file_put : (s.put r o w).file = s.file ∨ (s.put r o w).file = (s.put r o w).stored := by
  cases w with
  | false => exact .inl rfl
  | true => exact .inr rfl

lemma orders_put_of_eq (h : s.orders r.1 = some r.2) : (s.put r o w).orders = s.orders := by
  show update s.orders r.1 (some r.2) = s.orders
  rw [← h, Function.update_eq_self]

end System

/-! ### A registrar with one tier -/

/-- One tier is sold; the hash plays no role. -/
def oneTier : Config where
  H _ _ := 0
  z := 0
  commitmentOf _ _ := none
  wallet := 1
  priceOf l := if l = 8 then some 100000 else none
  settleBufferSec := 20
  maxInflight := 8

/-- A new set that admits the tier, operated by the wallet. -/
def genesis : Chain ℕ where
  used _ := false
  set := ⟨(· == 8), [8], fun _ => Paid.Leaf.none, 0, 0, Tree.new (fun _ _ => 0) 0, 1, 0⟩
  tx _ := none

/-- A request that passes the checks at time `100`. -/
def tierRequest (key commitment : ℕ) : Request ℕ := ⟨key, commitment, 8, 100000, 0, 1000, true⟩

/-- The process is not stopped by the step. -/
def Label.Runs {K T : Type} : Label K T → Prop
  | .restarted _ => False
  | _ => True

end ShadeTree.Registrar
