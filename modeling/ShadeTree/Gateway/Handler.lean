import Mathlib.Logic.Function.Basic
import ShadeTree.Lib.Run
import ShadeTree.Lib.Table
import ShadeTree.Gateway.EgressTarget
import ShadeTree.Gateway.PayloadBudget

/-!
# The connection handler (`makeHandler` in `gateway/gateway.mjs`)

The handler of a connection reads the envelope, waits for the proof, for the spent set and for the resolver,
dials the addresses of the target one after the other and relays.  What it waits for, and what the sockets do
meanwhile, comes as inputs in any order.  All connections share the limiter, the payload budget and the count of
open tunnels.

A socket that is destroyed emits nothing but an error it failed with before, and `close` once.  A data listener
that is removed leaves the client socket flowing, so a chunk that comes while there is none is gone.
-/

namespace ShadeTree.Gateway

open ShadeTree.Lib

def MAX_ENVELOPE : ℕ := 64 * 1024

/-! ### The limiter -/

/-- What `makeConnLimiter` keeps. -/
structure ConnLimiter where
  total : ℕ
  perNullifier : Table String ℕ

namespace ConnLimiter

def acquire (maxConns : ℕ) (l : ConnLimiter) : Option ConnLimiter :=
  if 0 < maxConns ∧ maxConns ≤ l.total then none else some { l with total := l.total + 1 }

def release (l : ConnLimiter) : ConnLimiter := { l with total := l.total - 1 }

def nullifierCount (n : String) (l : ConnLimiter) : ℕ := (l.perNullifier.lookup n).getD 0

def acquireNullifier (maxPerNullifier : ℕ) (n : String) (l : ConnLimiter) : Option ConnLimiter :=
  if 0 < maxPerNullifier ∧ maxPerNullifier ≤ l.nullifierCount n then none
  else some { l with perNullifier := l.perNullifier.insert n (l.nullifierCount n + 1) }

def releaseNullifier (n : String) (l : ConnLimiter) : ConnLimiter :=
  if l.nullifierCount n ≤ 1 then { l with perNullifier := l.perNullifier.erase n }
  else { l with perNullifier := l.perNullifier.insert n (l.nullifierCount n - 1) }

end ConnLimiter

/-! ### A connection -/

/-- The options of `makeHandler`, and what it reads of an envelope of type `E`. -/
structure HandlerConfig (E : Type) where
  maxConns : ℕ
  maxConnsPerNullifier : ℕ
  envelopeTimeoutMs : ℕ
  idleTimeoutMs : ℕ
  budget : BudgetConfig
  allowPrivateTargets : Bool
  /-- `JSON.parse` of the line, or the message with which it or the assignment of `__rest` throws. -/
  parse : List UInt8 → Except String E
  /-- The reason for which `acceptEnvelopeVersion(env.v)` refuses. -/
  acceptEnvelopeVersion : E → Option String
  /-- `env.target`, if it is a string. -/
  target : E → Option String
  targetPolicy : String → ℕ → Bool

/-- A socket to a candidate; one that fails has its error still to emit. -/
inductive SocketState where
  | connecting | connected | failing | gone
  deriving DecidableEq, Repr

/-- The variables of the handler once the target is resolved; the sockets are those of the candidates. -/
structure Tunnel where
  slot : Slot
  port : ℕ
  rest : List UInt8
  candidates : List Candidate
  candidateIndex : ℕ
  connectDeadlineAt : Option ℤ
  upstream : Option ℕ
  sockets : ℕ → SocketState
  established : Bool
  tunnelOpened : Bool
  gatewayCloseReason : Option String
  /-- The relay streams exist and are not destroyed. -/
  relaying : Bool
  piped : Bool
  /-- The chunks that wait for the transform. -/
  queue : List (List UInt8)
  payloadLimitScheduled : Bool

/-- What the handler waits for. -/
inductive Stage where
  | reading (buf : List UInt8)
  | verifying (host : String) (port : ℕ) (rest : List UInt8)
  | admitting (slot : Slot) (host : String) (port : ℕ) (rest : List UInt8)
  | resolving (slot : Slot) (host : String) (port : ℕ) (rest : List UInt8)
  | tunnel (t : Tunnel)
  | returned

/-- The client socket, the handler, and what the listeners of `close` are to release. -/
structure Conn where
  stage : Stage
  destroyed : Bool
  closed : Bool
  connHeld : Bool
  nullifierSlotHeld : Option String
  payloadBudgetHeld : Option Slot

/-- What all connections share. -/
structure Shared where
  limiter : ConnLimiter
  budget : PayloadBudget
  activeTunnels : ℕ

inductive Resource where
  | connection
  | nullifier (n : String)
  | payload (k : Slot)
  | tunnel
  deriving DecidableEq

/-- What the handler does that is seen: a drop is counted with its reason, a pass with none; a reply has an error
or is the acknowledgement. -/
inductive Effect where
  | acquire (r : Resource)
  | release (r : Resource)
  | tunnels (drop : Option String)
  | reply (err : Option String)
  | dial (i : ℕ) (port : ℕ) (address : String)
  | forward (bytes : List UInt8)
  deriving DecidableEq

/-- What comes to the handler of a connection; `now` are readings of the clock. -/
inductive Input where
  | connection
  | chunk (bytes : List UInt8)
  | ended
  | envelopeTimeout
  /-- The client socket is destroyed, without an error or with one. -/
  | clientDown
  | clientError (message : String)
  | clientClosed (now : ℤ)
  /-- `verify` answers, or throws. -/
  | verified (answer : Option (Except String Slot))
  /-- `spentSet.admit` answers, or throws. -/
  | admitted (answer : Option (Except String Unit)) (now : ℤ)
  /-- The resolver answers. -/
  | looked (answers : Option (List (Option Answer))) (now : ℤ)
  | connected (i : ℕ) (now : ℤ)
  /-- The socket of a candidate is destroyed by an error that is still to be emitted. -/
  | failing (i : ℕ)
  | upstreamError (i : ℕ) (code : String) (now : ℤ)
  | upstreamTimeout (i : ℕ) (now : ℤ) (later : ℤ)
  | upstreamClosed (i : ℕ)
  /-- The transform of the agent takes a chunk. -/
  | relay (now : ℤ)
  | fromDestination (size : ℕ) (now : ℤ)
  /-- The microtask of `closeAtPayloadLimit`. -/
  | payloadLimit
  deriving DecidableEq

namespace Tunnel

/-- The socket of a candidate is not destroyed. -/
def IsOpen (t : Tunnel) (i : ℕ) : Prop := t.sockets i = .connecting ∨ t.sockets i = .connected

instance (t : Tunnel) (i : ℕ) : Decidable (t.IsOpen i) := inferInstanceAs (Decidable (_ ∨ _))

/-- `destroy()` of the socket of a candidate: the error of one that fails is emitted all the same. -/
def destroySocket (t : Tunnel) (i : ℕ) : Tunnel :=
  if t.sockets i = .failing then t else { t with sockets := Function.update t.sockets i .gone }

/-- `upstream?.destroy()`. -/
def destroyUpstream (t : Tunnel) : Tunnel :=
  match t.upstream with
  | none => t
  | some i => t.destroySocket i

end Tunnel

/-- The tunnel of a connection is open. -/
def Stage.opened : Stage → Bool
  | .tunnel t => t.tunnelOpened
  | _ => false

/-- What a connection holds, in the order in which the listeners of `close` were added. -/
def Conn.held (x : Conn) : List Resource :=
  (if x.connHeld then [.connection] else []) ++ x.nullifierSlotHeld.toList.map .nullifier ++
    x.payloadBudgetHeld.toList.map .payload ++ if x.stage.opened then [.tunnel] else []

def upstreamDropLabel (code : String) : String :=
  if code = "ECONNREFUSED" then "upstream-refused"
  else if code ∈ ["ENETUNREACH", "EHOSTUNREACH", "ENETDOWN"] then "upstream-unreachable"
  else if code ∈ ["ECONNRESET", "EPIPE"] then "upstream-reset"
  else if code = "ETIMEDOUT" then "upstream-timeout"
  else "upstream-error"

section Handler

variable {E : Type} (C : HandlerConfig E)

/-- A drop that ends the handler. -/
def Conn.drop (x : Conn) (reason err : String) : Conn × List Effect :=
  ({ x with stage := .returned, destroyed := true }, [.tunnels (some reason), .reply (some err)])

/-- A drop while the tunnel is dialed. -/
def Conn.dropTunnel (x : Conn) (t : Tunnel) (reason err : String) : Conn × List Effect :=
  ({ x with stage := .tunnel t, destroyed := true }, [.tunnels (some reason), .reply (some err)])

/-- The listener of `readEnvelope`, and the handler up to `verify`. -/
def Conn.readChunk (x : Conn) (buf : List UInt8) : Conn × List Effect :=
  let nl := buf.idxOf 10
  if 10 ∉ buf then
    if MAX_ENVELOPE < buf.length then x.drop "envelope-too-large" "bad-envelope:envelope too large"
    else ({ x with stage := .reading buf }, [])
  else if MAX_ENVELOPE < nl then x.drop "envelope-too-large" "bad-envelope:envelope too large"
  else
    match C.parse (buf.take nl) with
    | .error message => x.drop "bad-envelope" ("bad-envelope:" ++ message)
    | .ok env =>
      match C.acceptEnvelopeVersion env with
      | some reason => x.drop reason reason
      | none =>
        match validTarget C.targetPolicy (C.target env) with
        | .error reason => x.drop reason reason
        | .ok (host, port) => ({ x with stage := .verifying host port (buf.drop (nl + 1)) }, [])

/-- The host and the port that the first line asks for. -/
def HandlerConfig.requested (buf : List UInt8) : Option (String × ℕ) :=
  match C.parse (buf.take (buf.idxOf 10)) with
  | .error _ => none
  | .ok env => (validTarget C.targetPolicy (C.target env)).toOption

/-- After a chunk the connection is dropped, or the line is incomplete, or the proof is verified. -/
lemma Conn.readChunk_cases (x : Conn) (buf : List UInt8) :
    (∃ reason err, x.readChunk C buf = x.drop reason err) ∨
    (10 ∉ buf ∧ x.readChunk C buf = ({ x with stage := .reading buf }, [])) ∨
    (10 ∈ buf ∧ ∃ host port, C.requested buf = some (host, port) ∧
      x.readChunk C buf = ({ x with stage := .verifying host port (buf.drop (buf.idxOf 10 + 1)) }, [])) := by
  simp only [Conn.readChunk]
  split
  · next hnl =>
    split
    · exact .inl ⟨_, _, rfl⟩
    · exact .inr (.inl ⟨hnl, rfl⟩)
  next hnl =>
  split
  · exact .inl ⟨_, _, rfl⟩
  cases hp : C.parse (buf.take (buf.idxOf 10)) with
  | error message => exact .inl ⟨_, _, rfl⟩
  | ok env =>
    cases hv : C.acceptEnvelopeVersion env with
    | some reason => exact .inl ⟨reason, reason, by simp only [hv]⟩
    | none =>
      cases ht : validTarget C.targetPolicy (C.target env) with
      | error reason => exact .inl ⟨reason, reason, by simp only [hv, ht]⟩
      | ok target =>
        refine .inr (.inr ⟨not_not.mp hnl, target.1, target.2, ?_, by simp only [hv, ht]⟩)
        simp only [HandlerConfig.requested, hp, ht]
        rfl

/-- `failConnectTimeout`. -/
def Conn.failConnectTimeout (x : Conn) (t : Tunnel) : Conn × List Effect :=
  x.dropTunnel t "upstream-timeout" "upstream:ETIMEDOUT"

/-- `dialNext`; there is a candidate left whenever it is called. -/
def Conn.dialNext (x : Conn) (t : Tunnel) (now : ℤ) : Conn × List Effect :=
  if t.connectDeadlineAt.any fun deadline => deadline ≤ now then x.failConnectTimeout t
  else
    match t.candidates[t.candidateIndex]? with
    | none => x.dropTunnel t "internal-error" "gateway-error"
    | some candidate =>
      ({ x with
          stage := .tunnel
            { t with
              candidateIndex := t.candidateIndex + 1
              upstream := some t.candidateIndex
              sockets := Function.update t.sockets t.candidateIndex .connecting } },
        [.dial t.candidateIndex t.port candidate.address])

/-- The handler once the target is resolved and the client is still there. -/
def Conn.openTunnel (x : Conn) (slot : Slot) (port : ℕ) (rest : List UInt8) (candidates : List Candidate) (now : ℤ) :
    Conn × List Effect :=
  x.dialNext
    { slot := slot, port := port, rest := rest, candidates := candidates, candidateIndex := 0
      connectDeadlineAt := if 0 < C.idleTimeoutMs then some (now + C.idleTimeoutMs) else none
      upstream := none, sockets := fun _ => .gone, established := false, tunnelOpened := false
      gatewayCloseReason := none, relaying := false, piped := false, queue := [], payloadLimitScheduled := false } now

/-- `payloadTransform` on the way to the destination. -/
def Tunnel.transform (t : Tunnel) (w : Shared) (now : ℤ) (bytes : List UInt8) : Shared × Tunnel × List Effect :=
  match w.budget.take C.budget now t.slot bytes.length with
  | .error _ => (w, t, [])
  | .ok (budget, result) =>
    ({ w with budget := budget },
      { t with payloadLimitScheduled := t.payloadLimitScheduled || result.exhausted },
      if 0 < result.allowed then [.forward (bytes.take result.allowed)] else [])

/-- The callback of `connect` for the socket that is dialed, with the client still there. -/
def Tunnel.establish (t : Tunnel) (w : Shared) (i : ℕ) (now : ℤ) : Shared × Tunnel × List Effect :=
  let w := { w with activeTunnels := w.activeTunnels + 1 }
  let sockets := Function.update t.sockets i .connected
  let t := { t with sockets := sockets, established := true, tunnelOpened := true, relaying := true }
  let effects := [.acquire .tunnel, .tunnels none, .reply none]
  if t.rest = [] then (w, { t with piped := true }, effects)
  else
    let (w, t, forwarded) := t.transform C w now t.rest
    (w, { t with piped := !t.payloadLimitScheduled }, effects ++ forwarded)

/-- The handler after `spentSet.admit` let the envelope pass. -/
def Conn.afterAdmit (x : Conn) (w : Shared) (slot : Slot) (host : String) (port : ℕ) (rest : List UInt8) (now : ℤ) :
    Shared × Conn × List Effect :=
  match w.limiter.acquireNullifier C.maxConnsPerNullifier slot.nullifier with
  | none => (w, x.drop "nullifier-conn-limit" "nullifier-conn-limit")
  | some limiter =>
    if x.destroyed then
      ({ w with limiter := limiter.releaseNullifier slot.nullifier }, { x with stage := .returned },
        [.acquire (.nullifier slot.nullifier), .release (.nullifier slot.nullifier)])
    else
      let (budget, remaining) := w.budget.acquire C.budget now slot
      let w := { w with limiter := limiter, budget := budget }
      let x := { x with nullifierSlotHeld := some slot.nullifier, payloadBudgetHeld := some slot }
      let held := [.acquire (.nullifier slot.nullifier), .acquire (.payload slot)]
      if remaining = some 0 then
        let (x, effects) := x.drop "payload-limit" "payload-limit"
        (w, x, held ++ effects)
      else (w, { x with stage := .resolving slot host port rest }, held)

/-- What a listener of `close` gives back. -/
def Shared.release (w : Shared) (now : ℤ) : Resource → Shared
  | .connection => { w with limiter := w.limiter.release }
  | .nullifier n => { w with limiter := w.limiter.releaseNullifier n }
  | .payload k => { w with budget := w.budget.release C.budget now k }
  | .tunnel => { w with activeTunnels := w.activeTunnels - 1 }

/-- `closeTunnel`, but for `onTunnelClose`. -/
def Tunnel.close (t : Tunnel) : Tunnel :=
  { t with tunnelOpened := false, relaying := false, queue := [] }.destroyUpstream

/-- The listeners of `close`. -/
def Conn.close (x : Conn) (w : Shared) (now : ℤ) : Shared × Conn × List Effect :=
  let stage :=
    match x.stage with
    | .tunnel t => .tunnel t.close
    | stage => stage
  (x.held.foldl (fun w r => w.release C now r) w,
    { stage := stage, destroyed := x.destroyed, closed := true, connHeld := false, nullifierSlotHeld := none
      payloadBudgetHeld := none },
    x.held.map .release)

/-- The listener of `error` of the socket of a candidate. -/
def Conn.upstreamError (x : Conn) (t : Tunnel) (i : ℕ) (code : String) (now : ℤ) : Conn × List Effect :=
  let t := { t with sockets := Function.update t.sockets i .gone }
  if t.upstream ≠ some i then ({ x with stage := .tunnel t }, [])
  else if t.established then
    ({ x with stage := .tunnel { t with gatewayCloseReason := t.gatewayCloseReason.or (some "upstream-error") }
              destroyed := true }, [])
  else if t.candidateIndex < t.candidates.length ∧ !x.destroyed then
    x.dialNext { t with upstream := none } now
  else x.dropTunnel t (upstreamDropLabel code) ("upstream:" ++ code)

/-- The timer of the socket of a candidate. -/
def Conn.upstreamTimeout (x : Conn) (t : Tunnel) (i : ℕ) (now later : ℤ) : Conn × List Effect :=
  if t.upstream ≠ some i then (x, [])
  else if t.established then
    ({ x with stage := .tunnel { t with gatewayCloseReason := some "idle-timeout" }.destroyUpstream
              destroyed := true }, [])
  else if t.candidateIndex < t.candidates.length ∧ (t.connectDeadlineAt.all fun deadline => now < deadline) ∧
      !x.destroyed then
    x.dialNext { t.destroyUpstream with upstream := none } later
  else x.failConnectTimeout t.destroyUpstream

/-- The handler waits for something before the tunnel and the input makes it drop the connection. -/
inductive Conn.Drops (x : Conn) : Input → String → String → Prop where
  | ended {buf : List UInt8} : x.destroyed = false → x.stage = .reading buf →
      Drops x .ended "bad-envelope" "bad-envelope:closed before envelope"
  | envelopeTimeout {buf : List UInt8} : 0 < C.envelopeTimeoutMs → x.stage = .reading buf →
      Drops x .envelopeTimeout "envelope-timeout" "bad-envelope:envelope timeout"
  | clientError {buf : List UInt8} {message : String} : x.closed = false → x.stage = .reading buf →
      Drops x (.clientError message) "bad-envelope" ("bad-envelope:" ++ message)
  | verifyThrew {host : String} {port : ℕ} {rest : List UInt8} : x.stage = .verifying host port rest →
      Drops x (.verified none) "internal-error" "gateway-error"
  | verifyRefused {host : String} {port : ℕ} {rest : List UInt8} {reason : String} :
      x.stage = .verifying host port rest → Drops x (.verified (some (.error reason))) reason ("gate:" ++ reason)
  | admitThrew {slot : Slot} {host : String} {port : ℕ} {rest : List UInt8} (now : ℤ) :
      x.stage = .admitting slot host port rest → Drops x (.admitted none now) "internal-error" "gateway-error"
  | admitRefused {slot : Slot} {host : String} {port : ℕ} {rest : List UInt8} {reason : String} (now : ℤ) :
      x.stage = .admitting slot host port rest → Drops x (.admitted (some (.error reason)) now) reason reason
  | lookRefused {slot : Slot} {host : String} {port : ℕ} {rest : List UInt8}
      {answers : Option (List (Option Answer))} {reason : String} (now : ℤ) :
      x.stage = .resolving slot host port rest →
      resolveEgressTarget C.allowPrivateTargets host answers = .error reason →
      Drops x (.looked answers now) reason reason

/-- A chunk is read or relayed at this stage. -/
def Stage.listens : Stage → Bool
  | .reading _ => true
  | .tunnel t => t.piped && t.relaying
  | _ => false

/-- The stage is neither the first nor that of the tunnel. -/
def Stage.between : Stage → Bool
  | .reading _ | .tunnel _ => false
  | _ => true

/-- What the handler of a connection makes of an input: the shared state and the connection after it, and the
effects.  The length of a chunk is a safe integer. -/
inductive Conn.Reacts (w : Shared) (x : Conn) : Input → Shared → Conn → List Effect → Prop where
  | drop {input : Input} {reason err : String} : x.Drops C input reason err →
      Reacts w x input w (x.drop reason err).1 (x.drop reason err).2
  | readChunk {buf bytes : List UInt8} : (bytes.length : ℤ) ≤ MAX_SAFE_INTEGER → x.destroyed = false →
      x.stage = .reading buf →
      Reacts w x (.chunk bytes) w (x.readChunk C (buf ++ bytes)).1 (x.readChunk C (buf ++ bytes)).2
  | verified {s : Slot} {host : String} {port : ℕ} {rest : List UInt8} : x.stage = .verifying host port rest →
      Reacts w x (.verified (some (.ok s))) w { x with stage := .admitting s host port rest } []
  | afterAdmit {slot : Slot} {host : String} {port : ℕ} {rest : List UInt8} (now : ℤ) :
      x.stage = .admitting slot host port rest →
      Reacts w x (.admitted (some (.ok ())) now) (x.afterAdmit C w slot host port rest now).1
        (x.afterAdmit C w slot host port rest now).2.1 (x.afterAdmit C w slot host port rest now).2.2
  | lookedLate {slot : Slot} {host : String} {port : ℕ} {rest : List UInt8}
      {answers : Option (List (Option Answer))} {candidates : List Candidate} (now : ℤ) :
      x.stage = .resolving slot host port rest →
      resolveEgressTarget C.allowPrivateTargets host answers = .ok candidates → x.destroyed = true →
      Reacts w x (.looked answers now) w { x with stage := .returned } []
  | looked {slot : Slot} {host : String} {port : ℕ} {rest : List UInt8}
      {answers : Option (List (Option Answer))} {candidates : List Candidate} (now : ℤ) :
      x.stage = .resolving slot host port rest →
      resolveEgressTarget C.allowPrivateTargets host answers = .ok candidates → x.destroyed = false →
      Reacts w x (.looked answers now) w (x.openTunnel C slot port rest candidates now).1
        (x.openTunnel C slot port rest candidates now).2
  -- no data listener: the chunk is gone
  | chunkLost (bytes : List UInt8) : x.destroyed = false → x.stage.listens = false →
      Reacts w x (.chunk bytes) w x []
  | ended : x.destroyed = false → (∀ buf, x.stage ≠ .reading buf) → Reacts w x .ended w x []
  | clientDown : Reacts w x .clientDown w { x with destroyed := true } []
  | clientError (message : String) : x.closed = false → x.stage.between = true →
      Reacts w x (.clientError message) w { x with destroyed := true } []
  | clientErrorTunnel {t : Tunnel} (message : String) : x.closed = false → x.stage = .tunnel t →
      Reacts w x (.clientError message) w { x with stage := .tunnel t.destroyUpstream, destroyed := true } []
  | clientClosed (now : ℤ) : x.destroyed = true → x.closed = false →
      Reacts w x (.clientClosed now) (x.close C w now).1 (x.close C w now).2.1 (x.close C w now).2.2
  | chunk {t : Tunnel} {bytes : List UInt8} : (bytes.length : ℤ) ≤ MAX_SAFE_INTEGER → x.destroyed = false →
      x.stage = .tunnel t → t.piped = true → t.relaying = true →
      Reacts w x (.chunk bytes) w { x with stage := .tunnel { t with queue := t.queue ++ [bytes] } } []
  | connectedLate {t : Tunnel} {i : ℕ} (now : ℤ) : x.stage = .tunnel t → t.sockets i = .connecting →
      t.upstream ≠ some i ∨ x.destroyed = true →
      Reacts w x (.connected i now) w { x with stage := .tunnel (t.destroySocket i) } []
  | connected {t : Tunnel} {i : ℕ} (now : ℤ) : x.stage = .tunnel t → t.sockets i = .connecting →
      t.upstream = some i → x.destroyed = false →
      Reacts w x (.connected i now) (t.establish C w i now).1 { x with stage := .tunnel (t.establish C w i now).2.1 }
        (t.establish C w i now).2.2
  | failing {t : Tunnel} {i : ℕ} : x.stage = .tunnel t → t.IsOpen i →
      Reacts w x (.failing i) w
        { x with stage := .tunnel { t with sockets := Function.update t.sockets i .failing } } []
  | upstreamError {t : Tunnel} {i : ℕ} (code : String) (now : ℤ) : x.stage = .tunnel t → t.sockets i = .failing →
      Reacts w x (.upstreamError i code now) w (x.upstreamError t i code now).1 (x.upstreamError t i code now).2
  | upstreamTimeout {t : Tunnel} {i : ℕ} (now later : ℤ) : 0 < C.idleTimeoutMs → x.stage = .tunnel t → t.IsOpen i →
      Reacts w x (.upstreamTimeout i now later) w (x.upstreamTimeout t i now later).1
        (x.upstreamTimeout t i now later).2
  | upstreamClosed {t : Tunnel} {i : ℕ} : x.stage = .tunnel t → t.IsOpen i →
      Reacts w x (.upstreamClosed i) w
        { x with stage := .tunnel { t with sockets := Function.update t.sockets i .gone } } []
  | relay {t : Tunnel} {bytes : List UInt8} {queue : List (List UInt8)} (now : ℤ) : x.stage = .tunnel t →
      t.queue = bytes :: queue → t.relaying = true →
      Reacts w x (.relay now) ({ t with queue := queue }.transform C w now bytes).1
        { x with stage := .tunnel ({ t with queue := queue }.transform C w now bytes).2.1 }
        ({ t with queue := queue }.transform C w now bytes).2.2
  | fromDestination {t : Tunnel} {size : ℕ} {budget : PayloadBudget} {result : Taken} (now : ℤ) :
      x.stage = .tunnel t → t.relaying = true → w.budget.take C.budget now t.slot size = .ok (budget, result) →
      Reacts w x (.fromDestination size now) { w with budget := budget }
        { x with stage := .tunnel
                  { t with payloadLimitScheduled := t.payloadLimitScheduled || result.exhausted } } []
  | payloadLimit {t : Tunnel} : x.stage = .tunnel t → t.payloadLimitScheduled = true →
      Reacts w x .payloadLimit w
        { x with stage := .tunnel
                  { t with gatewayCloseReason :=
                            if t.established then t.gatewayCloseReason.or (some "payload-limit")
                            else t.gatewayCloseReason } } []

end Handler

/-! ### The gateway -/

/-- A connection that is accepted. -/
def Conn.fresh : Conn := ⟨.reading [], false, false, true, none, none⟩

/-- A connection that is refused. -/
def Conn.refused : Conn := ⟨.returned, true, false, false, none, none⟩

structure Handlers where
  shared : Shared
  conns : ℕ → Option Conn

/-- An input of a connection with what the handler does, or the sweep of the budget. -/
inductive HandlerEvent where
  | «at» (c : ℕ) (input : Input) (effects : List Effect)
  | swept (now : ℤ)

/-- No connection yet. -/
def Handlers.start : Handlers := ⟨⟨⟨0, ∅⟩, ∅, 0⟩, fun _ => none⟩

inductive HandlerStep {E : Type} (C : HandlerConfig E) : Handlers → HandlerEvent → Handlers → Prop where
  | accept {s : Handlers} {c : ℕ} {limiter : ConnLimiter} :
      s.conns c = none → s.shared.limiter.acquire C.maxConns = some limiter →
      HandlerStep C s (.at c .connection [.acquire .connection])
        ⟨{ s.shared with limiter := limiter }, Function.update s.conns c (some .fresh)⟩
  | refuse {s : Handlers} {c : ℕ} :
      s.conns c = none → s.shared.limiter.acquire C.maxConns = none →
      HandlerStep C s
        (.at c .connection [.tunnels (some "too-many-connections"), .reply (some "too-many-connections")])
        { s with conns := Function.update s.conns c (some .refused) }
  | react {s : Handlers} {c : ℕ} {x x' : Conn} {input : Input} {w : Shared} {effects : List Effect} :
      s.conns c = some x → x.Reacts C s.shared input w x' effects →
      HandlerStep C s (.at c input effects) ⟨w, Function.update s.conns c (some x')⟩
  | sweep {s : Handlers} (now : ℤ) :
      HandlerStep C s (.swept now)
        { s with shared := { s.shared with budget := s.shared.budget.sweep C.budget now } }

/-- What a connection saw and did. -/
def HandlerEvent.ofConn (c : ℕ) : HandlerEvent → Option (Input × List Effect)
  | .at c' input effects => if c' = c then some (input, effects) else none
  | .swept _ => none

def historyOf (tr : List HandlerEvent) (c : ℕ) : List (Input × List Effect) := tr.filterMap (HandlerEvent.ofConn c)

/-- The effects of a history. -/
def effectsIn (h : List (Input × List Effect)) : List Effect := h.flatMap Prod.snd

lemma effectsIn_snoc (h : List (Input × List Effect)) (e : Input × List Effect) :
    effectsIn (h ++ [e]) = effectsIn h ++ e.2 := by
  simp [effectsIn]

/-- **One connection.** What holds once a connection is accepted or refused, and is kept by whatever the handler
makes of an input, holds of every connection in every run. -/
theorem HandlerStep.every_conn {E : Type} {C : HandlerConfig E} {I : List (Input × List Effect) → Conn → Prop}
    (hfresh : I [(.connection, [.acquire .connection])] .fresh)
    (hrefused : I [(.connection, [.tunnels (some "too-many-connections"), .reply (some "too-many-connections")])]
      .refused)
    (hreact : ∀ h w x input w' x' effects, I h x → Conn.Reacts C w x input w' x' effects →
      I (h ++ [(input, effects)]) x')
    {tr : List HandlerEvent} {s : Handlers} (hrun : Run (HandlerStep C) .start tr s) :
    ∀ c, (s.conns c = none → historyOf tr c = []) ∧ ∀ x, s.conns c = some x → I (historyOf tr c) x := by
  refine hrun.invariant (I := fun tr s => ∀ c, (s.conns c = none → historyOf tr c = []) ∧
    ∀ x, s.conns c = some x → I (historyOf tr c) x) (fun c => ⟨fun _ => rfl, fun x hx => by cases hx⟩) ?_
  intro tr s e s' _ ih hst c
  have hsnoc : ∀ e, historyOf (tr ++ [e]) c = historyOf tr c ++ (e.ofConn c).toList := by
    intro e
    cases he : e.ofConn c with
    | none => simp [historyOf, he]
    | some p => simp [historyOf, he]
  rw [hsnoc]
  cases hst with
  | @accept c₀ limiter hnone hl =>
    by_cases hc : c₀ = c
    · subst hc
      have hnil := (ih c₀).1 hnone
      refine ⟨fun h => by simp at h, fun x hx => ?_⟩
      obtain rfl : Conn.fresh = x := by simpa using hx
      simpa [HandlerEvent.ofConn, hnil] using hfresh
    · simpa [HandlerEvent.ofConn, hc, Function.update_of_ne (Ne.symm hc)] using ih c
  | @refuse c₀ hnone hl =>
    by_cases hc : c₀ = c
    · subst hc
      have hnil := (ih c₀).1 hnone
      refine ⟨fun h => by simp at h, fun x hx => ?_⟩
      obtain rfl : Conn.refused = x := by simpa using hx
      simpa [HandlerEvent.ofConn, hnil] using hrefused
    · simpa [HandlerEvent.ofConn, hc, Function.update_of_ne (Ne.symm hc)] using ih c
  | @react c₀ x x' input w effects hx hr =>
    by_cases hc : c₀ = c
    · subst hc
      refine ⟨fun h => by simp at h, fun y hy => ?_⟩
      obtain rfl : x' = y := by simpa using hy
      simpa [HandlerEvent.ofConn] using hreact _ _ _ _ _ _ _ ((ih c₀).2 x hx) hr
    · simpa [HandlerEvent.ofConn, hc, Function.update_of_ne (Ne.symm hc)] using ih c
  | sweep now => simpa [HandlerEvent.ofConn] using ih c

end ShadeTree.Gateway
